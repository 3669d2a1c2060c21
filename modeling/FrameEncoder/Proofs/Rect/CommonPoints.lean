import FrameEncoder.Picture.DamageCopy
import FrameEncoder.Proofs.Rect.Intersection

/-!
# Rectangles of common points

A rectangle with an extent is known by its points. Hence the common points of two rectangles, as far
as they lie before the last coordinate, make up one rectangle at most, and an intersection is that
one. What intersections in a row leave is known by its points too, and a point is left if it lies in
all of the rectangles. So they may be taken in any order: a damage rectangle is cut to the tile and
to the picture with the same result whichever comes first.
-/

namespace FrameEncoder.Rect

variable {a b p q : Rect}

/-- The first point of a rectangle with an extent. -/
theorem has_first (h : q.isEmpty = false) : q.Has q.x.toInt q.y.toInt := by
  obtain ⟨hwidth, hheight⟩ := (isEmpty_eq_false_iff q).mp h
  unfold Has
  omega

/-- The last point of a rectangle with an extent. -/
theorem has_last (h : q.isEmpty = false) :
    q.Has (q.x.toInt + q.width.toInt - 1) (q.y.toInt + q.height.toInt - 1) := by
  obtain ⟨hwidth, hheight⟩ := (isEmpty_eq_false_iff q).mp h
  unfold Has
  omega

/-- A rectangle that starts at the origin has no point at the last coordinate. -/
theorem lt_coordinateEnd_of_has (hx : q.x = 0) (hy : q.y = 0) {x y : Int} (h : q.Has x y) :
    x < coordinateEnd ∧ y < coordinateEnd := by
  obtain ⟨-, hright, -, hbottom⟩ := h
  have hwidth := toInt_mem_range q.width
  have hheight := toInt_mem_range q.height
  have hzero : (0 : Int32).toInt = 0 := rfl
  rw [hx, hzero] at hright
  rw [hy, hzero] at hbottom
  unfold coordinateEnd
  omega

/-- Rectangles with an extent and the same points are the same. -/
theorem eq_of_has_iff (hp : p.isEmpty = false) (hq : q.isEmpty = false)
    (h : ∀ x y, p.Has x y ↔ q.Has x y) : p = q := by
  -- The first and the last point of either one lie in the other.
  obtain ⟨hqx, -, hqy, -⟩ := (h _ _).mp (has_first hp)
  obtain ⟨hpx, -, hpy, -⟩ := (h _ _).mpr (has_first hq)
  obtain ⟨-, hqr, -, hqb⟩ := (h _ _).mp (has_last hp)
  obtain ⟨-, hpr, -, hpb⟩ := (h _ _).mpr (has_last hq)
  have hx : p.x = q.x := Int32.toInt_inj.mp (by omega)
  have hy : p.y = q.y := Int32.toInt_inj.mp (by omega)
  have hwidth : p.width = q.width := Int32.toInt_inj.mp (by rw [hx] at hqr hpr; omega)
  have hheight : p.height = q.height := Int32.toInt_inj.mp (by rw [hy] at hqb hpb; omega)
  cases p
  cases q
  simp only at hx hy hwidth hheight
  rw [hx, hy, hwidth, hheight]

/-- Whether a point lies in both rectangles, before the last coordinate. -/
def HaveCommon (a b : Rect) (x y : Int) : Prop :=
  a.Has x y ∧ b.Has x y ∧ x < coordinateEnd ∧ y < coordinateEnd

/-- The rectangle of the common points of two others. -/
structure IsCommonPart (a b q : Rect) : Prop where
  has_iff : ∀ x y, q.Has x y ↔ HaveCommon a b x y
  width_pos : 0 < q.width.toInt
  height_pos : 0 < q.height.toInt
  right_le : q.x.toInt + q.width.toInt ≤ coordinateEnd
  bottom_le : q.y.toInt + q.height.toInt ≤ coordinateEnd

/-- The common part has an extent. -/
theorem IsCommonPart.isEmpty_eq_false (h : IsCommonPart a b q) : q.isEmpty = false :=
  (isEmpty_eq_false_iff q).mpr ⟨h.width_pos, h.height_pos⟩

/-- An intersection is the rectangle of the common points. -/
theorem isCommonPart_of_intersect (h : a.intersect b = some q) : IsCommonPart a b q := by
  have o := isOverlap_of_intersect h
  exact {
    has_iff := has_intersect_iff h
    width_pos := o.width_pos
    height_pos := o.height_pos
    right_le := o.right ▸ Int.min_le_right _ _
    bottom_le := o.bottom ▸ Int.min_le_right _ _ }

/-- The points that an intersection leaves are the common points. -/
theorem exists_intersect_has_iff (a b : Rect) (x y : Int) :
    (∃ q, a.intersect b = some q ∧ q.Has x y) ↔ HaveCommon a b x y := by
  constructor
  · rintro ⟨q, hq, hhas⟩
    exact (has_intersect_iff hq x y).mp hhas
  · rintro ⟨ha, hb, hx, hy⟩
    cases hq : a.intersect b with
    | none =>
      have hend := not_has_of_intersect_eq_none hq ha hb
      omega
    | some q => exact ⟨q, rfl, (has_intersect_iff hq x y).mpr ⟨ha, hb, hx, hy⟩⟩

/-- There is an intersection exactly if there is a common point. -/
theorem isSome_intersect_iff (a b : Rect) :
    (a.intersect b).isSome ↔ ∃ x y, HaveCommon a b x y := by
  simp only [← exists_intersect_has_iff]
  constructor
  · intro h
    obtain ⟨q, hq⟩ := Option.isSome_iff_exists.mp h
    exact ⟨_, _, q, hq, has_first (isCommonPart_of_intersect hq).isEmpty_eq_false⟩
  · rintro ⟨x, y, q, hq, -⟩
    exact Option.isSome_of_mem hq

/-- No other rectangle than the intersection is the rectangle of the common points. -/
theorem intersect_eq_some_iff (a b q : Rect) : a.intersect b = some q ↔ IsCommonPart a b q := by
  refine ⟨isCommonPart_of_intersect, fun h => ?_⟩
  have hempty := h.isEmpty_eq_false
  obtain ⟨p, hp, -⟩ := (exists_intersect_has_iff a b _ _).mpr ((h.has_iff _ _).mp (has_first hempty))
  have hpart := isCommonPart_of_intersect hp
  have heq : p = q := eq_of_has_iff hpart.isEmpty_eq_false hempty fun x y =>
    (hpart.has_iff x y).trans (h.has_iff x y).symm
  rw [hp, heq]

/-- What intersections leave, if anything, has an extent. -/
def LeavesExtent (left : Option Rect) : Prop := ∀ q, left = some q → q.isEmpty = false

/-- An intersection leaves an extent. -/
theorem leavesExtent_intersect (a b : Rect) : LeavesExtent (a.intersect b) :=
  fun _ h => (isCommonPart_of_intersect h).isEmpty_eq_false

/-- So do intersections one after the other. -/
theorem leavesExtent_bind (left : Option Rect) {cut : Rect → Option Rect}
    (h : ∀ p, LeavesExtent (cut p)) : LeavesExtent (left.bind cut) := by
  intro q hq
  obtain ⟨p, -, hp⟩ := Option.bind_eq_some_iff.mp hq
  exact h p q hp

/-- What intersections leave is known by its points. -/
theorem eq_of_exists_has_iff {left right : Option Rect} (hleft : LeavesExtent left)
    (hright : LeavesExtent right)
    (h : ∀ x y, (∃ q, left = some q ∧ q.Has x y) ↔ ∃ q, right = some q ∧ q.Has x y) :
    left = right := by
  cases left with
  | none =>
    cases right with
    | none => rfl
    | some q =>
      obtain ⟨_, hnone, -⟩ := (h _ _).mpr ⟨q, rfl, has_first (hright q rfl)⟩
      cases hnone
  | some p =>
    obtain ⟨q, hq, -⟩ := (h _ _).mp ⟨p, rfl, has_first (hleft p rfl)⟩
    subst hq
    simp only [Option.some.injEq, exists_eq_left'] at h
    rw [eq_of_has_iff (hleft p rfl) (hright q rfl) h]

/-- An intersection does not depend on which rectangle comes first. -/
theorem intersect_comm (a b : Rect) : a.intersect b = b.intersect a := by
  apply eq_of_exists_has_iff (leavesExtent_intersect a b) (leavesExtent_intersect b a)
  intro x y
  rw [exists_intersect_has_iff, exists_intersect_has_iff, HaveCommon, HaveCommon, and_left_comm]

/-- The points that two intersections in a row leave are those of all three rectangles. -/
theorem exists_intersect_intersect_has_iff (a b c : Rect) (x y : Int) :
    (∃ q, ((a.intersect b).bind fun p => p.intersect c) = some q ∧ q.Has x y) ↔
      a.Has x y ∧ b.Has x y ∧ c.Has x y ∧ x < coordinateEnd ∧ y < coordinateEnd := by
  constructor
  · rintro ⟨q, hq, hhas⟩
    obtain ⟨p, hp, hq⟩ := Option.bind_eq_some_iff.mp hq
    obtain ⟨hhasp, hc⟩ := (has_intersect_iff hq x y).mp hhas
    obtain ⟨ha, hb, -⟩ := (has_intersect_iff hp x y).mp hhasp
    exact ⟨ha, hb, hc⟩
  · rintro ⟨ha, hb, hc, hend⟩
    obtain ⟨p, hp, hhasp⟩ := (exists_intersect_has_iff a b x y).mpr ⟨ha, hb, hend⟩
    obtain ⟨q, hq, hhas⟩ := (exists_intersect_has_iff p c x y).mpr ⟨hhasp, hc, hend⟩
    exact ⟨q, Option.bind_eq_some_iff.mpr ⟨p, hp, hq⟩, hhas⟩

/-- Of two rectangles to cut to, either one may come first. -/
theorem intersect_right_comm (a b c : Rect) :
    ((a.intersect b).bind fun p => p.intersect c) =
      (a.intersect c).bind fun p => p.intersect b := by
  apply eq_of_exists_has_iff (leavesExtent_bind _ fun p => leavesExtent_intersect p c)
    (leavesExtent_bind _ fun p => leavesExtent_intersect p b)
  intro x y
  rw [exists_intersect_intersect_has_iff, exists_intersect_intersect_has_iff,
    and_left_comm (a := b.Has x y)]

/-- A rectangle is cut to two others at once or one after the other. -/
theorem intersect_assoc (a b c : Rect) :
    ((a.intersect b).bind fun p => p.intersect c) =
      (b.intersect c).bind fun p => a.intersect p :=
  calc ((a.intersect b).bind fun p => p.intersect c)
    _ = (b.intersect a).bind fun p => p.intersect c := by rw [intersect_comm]
    _ = (b.intersect c).bind fun p => p.intersect a := intersect_right_comm b a c
    _ = (b.intersect c).bind fun p => a.intersect p := by simp only [intersect_comm a]

/-- Two rectangles intersect exactly if they have a common point before the last coordinate, and the
intersection is the one rectangle of these points: it has an extent and ends at the last coordinate
at the latest. Neither the order nor the grouping of intersections matters, where none stays none, so
a damage rectangle may be cut to the tile first or to the picture first. -/
theorem intersect_points :
    (∀ a b : Rect, ((a.intersect b).isSome ↔ ∃ x y, HaveCommon a b x y) ∧
      ∀ q, a.intersect b = some q ↔ IsCommonPart a b q) ∧
    (∀ a b : Rect, a.intersect b = b.intersect a) ∧
    (∀ a b c : Rect, ((a.intersect b).bind fun p => p.intersect c) =
      (b.intersect c).bind fun p => a.intersect p) ∧
    ∀ (g : CopyGeometry) (r : Rect),
      g.clip r = (r.intersect g.targetRect).bind fun p => p.intersect g.sourceRect :=
  ⟨fun a b => ⟨isSome_intersect_iff a b, intersect_eq_some_iff a b⟩, intersect_comm,
    intersect_assoc, fun g r => intersect_right_comm r g.sourceRect g.targetRect⟩

/-- A rectangle whose far edges are beyond the last coordinate covers a tile. -/
example : intersect ⟨-8, -8, 2147483647, 2147483647⟩ ⟨0, 0, 64, 64⟩ = some ⟨0, 0, 64, 64⟩ := by
  decide

/-- The point at the last coordinate lies in no intersection, be it the only common one. -/
example : intersect ⟨2147483647, 0, 1, 1⟩ ⟨2147483647, 0, 1, 1⟩ = none := by
  decide

end FrameEncoder.Rect
