import FrameEncoder.Rect

/-!
# The points of an intersection

A rectangle stands for the integer points between its edges, which are taken over unbounded
integers. Far edges saturate at the last 32-bit coordinate, so a point with that coordinate lies
in no intersection. All other points of two rectangles lie in their intersection, and no point
lies there that is not in both.
-/

namespace FrameEncoder

/-- One past the last coordinate an intersection can reach. -/
def coordinateEnd : Int := 2147483647

/-- Bounds of a 32-bit value as an integer. -/
theorem toInt_mem_range (n : Int32) : -2147483648 ≤ n.toInt ∧ n.toInt < 2147483648 :=
  ⟨n.le_toInt, n.toInt_lt⟩

/-- The greater of two 32-bit values is the greater integer. -/
theorem toInt_max32 (a b : Int32) : (max a b).toInt = max a.toInt b.toInt := by
  show (if a ≤ b then b else a).toInt = _
  by_cases h : a ≤ b
  · have hi := Int32.le_iff_toInt_le.mp h
    rw [if_pos h]
    omega
  · have hi : ¬ a.toInt ≤ b.toInt := fun hc => h (Int32.le_iff_toInt_le.mpr hc)
    rw [if_neg h]
    omega

/-- The smaller of two 32-bit values is the smaller integer. -/
theorem toInt_min32 (a b : Int32) : (min a b).toInt = min a.toInt b.toInt := by
  show (if a ≤ b then a else b).toInt = _
  by_cases h : a ≤ b
  · have hi := Int32.le_iff_toInt_le.mp h
    rw [if_pos h]
    omega
  · have hi : ¬ a.toInt ≤ b.toInt := fun hc => h (Int32.le_iff_toInt_le.mpr hc)
    rw [if_neg h]
    omega

/-- A natural number cut to 32 bits is, as an integer, at most the number. -/
theorem toInt_ofNat_le (n : Nat) : (Int32.ofNat n).toInt ≤ n := by
  rw [Int32.toInt_ofNat', Int.bmod_def]
  simp only [Int32.size]
  split <;> omega

namespace Rect

/-- Whether a point lies in a rectangle. -/
def Has (r : Rect) (x y : Int) : Prop :=
  r.x.toInt ≤ x ∧ x < r.x.toInt + r.width.toInt ∧ r.y.toInt ≤ y ∧ y < r.y.toInt + r.height.toInt

instance (r : Rect) (x y : Int) : Decidable (r.Has x y) := inferInstanceAs (Decidable (_ ∧ _))

/-- A rectangle has an extent in both directions exactly if it is not empty. -/
theorem isEmpty_eq_false_iff (r : Rect) :
    r.isEmpty = false ↔ 0 < r.width.toInt ∧ 0 < r.height.toInt := by
  simp only [isEmpty, Bool.or_eq_false_iff, decide_eq_false_iff_not, Int32.le_iff_toInt_le]
  simp

/-- The common part of two spans in one direction, given by their starts and extents. The extent
is that of the common integers below the last coordinate, or not positive if there are none. -/
theorem overlap_spec {a m b n : Int} (ha : -2147483648 ≤ a ∧ a < 2147483648)
    (hm : -2147483648 ≤ m ∧ m < 2147483648) (hb : -2147483648 ≤ b ∧ b < 2147483648)
    (hn : -2147483648 ≤ n ∧ n < 2147483648) :
    let start := max a b
    let stop := min (saturate32 (a + m)).toInt (saturate32 (b + n)).toInt
    let extent := (saturate32 (stop - start)).toInt
    (0 < extent → start + extent = min (min (a + m) (b + n)) coordinateEnd) ∧
      (extent ≤ 0 → min (min (a + m) (b + n)) coordinateEnd ≤ start) := by
  simp only [toInt_saturate32, coordinateEnd]
  omega

variable {a b q : Rect}

/-- Where an intersection starts, and where it ends. -/
structure IsOverlap (a b q : Rect) : Prop where
  left : q.x.toInt = max a.x.toInt b.x.toInt
  top : q.y.toInt = max a.y.toInt b.y.toInt
  width_pos : 0 < q.width.toInt
  height_pos : 0 < q.height.toInt
  right : q.x.toInt + q.width.toInt =
    min (min (a.x.toInt + a.width.toInt) (b.x.toInt + b.width.toInt)) coordinateEnd
  bottom : q.y.toInt + q.height.toInt =
    min (min (a.y.toInt + a.height.toInt) (b.y.toInt + b.height.toInt)) coordinateEnd

/-- An intersection runs from the later of the starts to the earlier of the ends. -/
theorem isOverlap_of_intersect (h : a.intersect b = some q) : IsOverlap a b q := by
  have hx := overlap_spec (toInt_mem_range a.x) (toInt_mem_range a.width)
    (toInt_mem_range b.x) (toInt_mem_range b.width)
  have hy := overlap_spec (toInt_mem_range a.y) (toInt_mem_range a.height)
    (toInt_mem_range b.y) (toInt_mem_range b.height)
  unfold intersect at h
  simp only at h
  split at h
  · cases h
  · next he =>
    obtain ⟨hw, hh⟩ := (isEmpty_eq_false_iff _).mp (Bool.eq_false_iff.mpr he)
    cases h
    simp only [right, bottom, toInt_max32, toInt_min32] at hw hh hx hy ⊢
    exact ⟨toInt_max32 .., toInt_max32 .., hw, hh,
      by rw [toInt_max32]; exact hx.1 hw, by rw [toInt_max32]; exact hy.1 hh⟩

/-- Whether a rectangle runs between the edges of another. -/
structure Within (q a : Rect) : Prop where
  left_le : a.x.toInt ≤ q.x.toInt
  right_le : q.x.toInt + q.width.toInt ≤ a.x.toInt + a.width.toInt
  top_le : a.y.toInt ≤ q.y.toInt
  bottom_le : q.y.toInt + q.height.toInt ≤ a.y.toInt + a.height.toInt

/-- A rectangle within one that is within a third is within the third. -/
theorem Within.trans {c : Rect} (h : Within q a) (k : Within a c) : Within q c :=
  ⟨Int.le_trans k.left_le h.left_le, Int.le_trans h.right_le k.right_le,
    Int.le_trans k.top_le h.top_le, Int.le_trans h.bottom_le k.bottom_le⟩

/-- An intersection is within both rectangles. -/
theorem IsOverlap.within (o : IsOverlap a b q) : Within q a ∧ Within q b := by
  obtain ⟨hl, ht, -, -, hr, hb⟩ := o
  constructor <;> constructor <;> omega

/-- Rectangles without an intersection have no common point below the last coordinate. -/
theorem not_has_of_intersect_eq_none (h : a.intersect b = none) {x y : Int} (ha : a.Has x y)
    (hb : b.Has x y) : coordinateEnd ≤ x ∨ coordinateEnd ≤ y := by
  have hx := overlap_spec (toInt_mem_range a.x) (toInt_mem_range a.width)
    (toInt_mem_range b.x) (toInt_mem_range b.width)
  have hy := overlap_spec (toInt_mem_range a.y) (toInt_mem_range a.height)
    (toInt_mem_range b.y) (toInt_mem_range b.height)
  unfold intersect at h
  simp only at h
  split at h
  · next he =>
    have hn := mt (isEmpty_eq_false_iff _).mpr (fun hf => Bool.eq_false_iff.mp hf he)
    simp only [right, bottom, toInt_max32, toInt_min32] at hn hx hy
    unfold Has at ha hb
    omega
  · cases h

/-- The points of an intersection are the points of both rectangles below the last
coordinate. -/
theorem has_intersect_iff (h : a.intersect b = some q) (x y : Int) :
    q.Has x y ↔ a.Has x y ∧ b.Has x y ∧ x < coordinateEnd ∧ y < coordinateEnd := by
  have o := isOverlap_of_intersect h
  have hx := o.right
  have hy := o.bottom
  have hl := o.left
  have ht := o.top
  unfold Has
  omega

end Rect

end FrameEncoder
