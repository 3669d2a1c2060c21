import FrameEncoder.Proofs.Picture.Clipping
import FrameEncoder.Proofs.Rect.CommonPoints

/-!
# The luma of a copied picture

A luma sample of the picture stands for a point of the screen, and so does one of the tile. A copy
moves a sample of the tile to the sample of the picture that stands for the same point, if the point
lies in a cut rectangle: that is, in the tile, in the picture and in some rectangle. It writes no
other luma, whatever the order of the rectangles is.
-/

namespace FrameEncoder.CopyGeometry

variable {g : CopyGeometry}

/-- Where a luma sample of a picture lies. -/
def lumaOffset (g : CopyGeometry) (dx dy : Nat) : Nat := dy * g.paddedWidth + dx

/-- Where the luma sample of a tile lies that stands for a point of the screen. -/
def tileLumaOffset (g : CopyGeometry) (x y : Int) : Nat := y.toNat * g.tileWidth + x.toNat

/-- A luma sample of a picture. -/
def luma? (g : CopyGeometry) (picture : ByteArray) (dx dy : Nat) : Option UInt8 :=
  (Bytes.toList picture)[g.lumaOffset dx dy]?

/-- The luma sample of a tile that stands for a point of the screen. -/
def tileLuma? (g : CopyGeometry) (src : ByteArray) (x y : Int) : Option UInt8 :=
  (Bytes.toList src)[g.tileLumaOffset x y]?

/-- The screen column of a column of the picture. -/
def screenColumn (g : CopyGeometry) (dx : Nat) : Int := dx + g.left.toInt

/-- The screen row of a row of the picture. -/
def screenRow (g : CopyGeometry) (dy : Nat) : Int := dy + g.top.toInt

/-- Whether a point lies in a cut rectangle. -/
def Damages (g : CopyGeometry) (rects : List Rect) (x y : Int) : Prop :=
  ∃ q ∈ rects.filterMap g.clip, q.Has x y

instance (g : CopyGeometry) (rects : List Rect) (x y : Int) : Decidable (g.Damages rects x y) :=
  inferInstanceAs (Decidable (∃ q ∈ rects.filterMap g.clip, q.Has x y))

/-- The points of a rectangle that remain when it is cut are those in the tile and in the picture. -/
theorem exists_clip_has_iff (r : Rect) (x y : Int) :
    (∃ q, g.clip r = some q ∧ q.Has x y) ↔
      r.Has x y ∧ g.sourceRect.Has x y ∧ g.targetRect.Has x y := by
  rw [clip, Rect.exists_intersect_intersect_has_iff]
  constructor
  · rintro ⟨hhas, hsource, htarget, -⟩
    exact ⟨hhas, hsource, htarget⟩
  · rintro ⟨hhas, hsource, htarget⟩
    exact ⟨hhas, hsource, htarget, Rect.lt_coordinateEnd_of_has rfl rfl hsource⟩

/-- A point lies in a cut rectangle exactly if it lies in the tile, in the picture and in some
rectangle. -/
theorem damages_iff (rects : List Rect) (x y : Int) :
    g.Damages rects x y ↔
      (g.sourceRect.Has x y ∧ g.targetRect.Has x y) ∧ ∃ r ∈ rects, r.Has x y := by
  constructor
  · rintro ⟨q, hq, hhas⟩
    obtain ⟨r, hr, hclip⟩ := List.mem_filterMap.mp hq
    obtain ⟨hhasr, hin⟩ := (exists_clip_has_iff r x y).mp ⟨q, hclip, hhas⟩
    exact ⟨hin, r, hr, hhasr⟩
  · rintro ⟨hin, r, hr, hhasr⟩
    obtain ⟨q, hclip, hhas⟩ := (exists_clip_has_iff r x y).mpr ⟨hhasr, hin⟩
    exact ⟨q, List.mem_filterMap.mpr ⟨r, hr, hclip⟩, hhas⟩

/-- For sizes of 32 bits, the points of the tile are those of its luma samples. -/
theorem sourceRect_has_iff (hwidth : g.tileWidth < 2147483648)
    (hheight : g.tileHeight < 2147483648) (x y : Int) :
    g.sourceRect.Has x y ↔ (0 ≤ x ∧ x < g.tileWidth) ∧ 0 ≤ y ∧ y < g.tileHeight := by
  have hzero : (0 : Int32).toInt = 0 := rfl
  simp only [Rect.Has, sourceRect, hzero, Int32.toInt_ofNat_of_lt hwidth,
    Int32.toInt_ofNat_of_lt hheight]
  omega

/-- For sizes of 32 bits, the points of the picture are those of its luma samples. -/
theorem targetRect_has_iff (hwidth : g.paddedWidth < 2147483648)
    (hheight : g.paddedHeight < 2147483648) (x y : Int) :
    g.targetRect.Has x y ↔
      (g.left.toInt ≤ x ∧ x < g.left.toInt + g.paddedWidth) ∧
        g.top.toInt ≤ y ∧ y < g.top.toInt + g.paddedHeight := by
  simp only [Rect.Has, targetRect, Int32.toInt_ofNat_of_lt hwidth,
    Int32.toInt_ofNat_of_lt hheight]
  omega

/-- A row of a cut rectangle writes the luma samples of its points, and takes those of the tile. -/
theorem sourceOf?_lumaRow_iff {r q : Rect} (hclip : g.clip r = some q) {src : ByteArray}
    {row dx dy i : Nat} (hdx : dx < g.paddedWidth) :
    (g.lumaRow src q row).sourceOf? (g.lumaOffset dx dy) = some i ↔
      (q.y.toInt + row = g.screenRow dy ∧ q.x.toInt ≤ g.screenColumn dx ∧
        g.screenColumn dx < q.x.toInt + q.width.toInt) ∧
      i = g.tileLumaOffset (g.screenColumn dx) (g.screenRow dy) := by
  obtain ⟨hx, hy⟩ := isCutSpan_of_clip hclip
  have hx0 := hx.start_nonneg
  have hxo := hx.origin_le
  have hxw := hx.extent_pos
  have hxp := hx.le_picture
  have hy0 := hy.start_nonneg
  have hyo := hy.origin_le
  have hrun : g.columnOf q.x + q.width.toInt.toNat ≤ g.paddedWidth := by
    unfold columnOf
    omega
  rw [Transfer.sourceOf?_eq_some_iff]
  simp only [lumaRow, lumaOffset, Plane.whole, Nat.zero_add, Nat.mul_one]
  rw [rowOffset_mem_iff hrun hdx]
  unfold columnOf rowOf screenColumn screenRow tileLumaOffset
  constructor
  · rintro ⟨⟨hrow, hleft, hright⟩, rfl⟩
    have hline : (dy + g.top.toInt).toNat = q.y.toInt.toNat + row := by omega
    refine ⟨by omega, ?_⟩
    rw [hline, hrow]
    omega
  · rintro ⟨⟨hrow, hleft, hright⟩, rfl⟩
    have hline : (dy + g.top.toInt).toNat = q.y.toInt.toNat + row := by omega
    have hback : (q.y.toInt - g.top.toInt).toNat + row = dy := by omega
    refine ⟨by omega, ?_⟩
    rw [hline, hback]
    omega

/-- The luma rows of a copy are those of the cut rectangles. -/
theorem exists_lumaRow_of_mem {rects : List Rect} {src : ByteArray} {t : Transfer}
    (ht : t ∈ (rects.filterMap g.clip).flatMap (g.lumaTransfers src)) :
    ∃ q ∈ rects.filterMap g.clip, (∃ r, g.clip r = some q) ∧
      ∃ row < q.height.toInt.toNat, t = g.lumaRow src q row := by
  obtain ⟨q, hq, hrow⟩ := List.mem_flatMap.mp ht
  obtain ⟨r, -, hclip⟩ := List.mem_filterMap.mp hq
  obtain ⟨row, hlt, rfl⟩ := List.mem_map.mp hrow
  exact ⟨q, hq, ⟨r, hclip⟩, row, List.mem_range.mp hlt, rfl⟩

/-- The luma rows of a copy write luma samples of the picture only. -/
theorem exists_lumaOffset_of_sourceOf? {rects : List Rect} {src : ByteArray} {t : Transfer}
    (ht : t ∈ (rects.filterMap g.clip).flatMap (g.lumaTransfers src)) {i j : Nat}
    (h : t.sourceOf? j = some i) :
    ∃ dx < g.paddedWidth, ∃ dy < g.paddedHeight, j = g.lumaOffset dx dy := by
  obtain ⟨q, -, ⟨r, hclip⟩, row, hrow, rfl⟩ := exists_lumaRow_of_mem ht
  obtain ⟨hx, hy⟩ := isCutSpan_of_clip hclip
  have hxo := hx.origin_le
  have hxp := hx.le_picture
  have hyo := hy.origin_le
  have hyp := hy.le_picture
  obtain ⟨⟨hle, hlt⟩, -⟩ := Transfer.sourceOf?_eq_some_iff.mp h
  simp only [lumaRow, Nat.zero_add] at hle hlt
  refine ⟨j - (g.rowOf q.y + row) * g.paddedWidth, ?_, g.rowOf q.y + row, ?_, ?_⟩
  · unfold columnOf at hle hlt
    omega
  · unfold rowOf
    omega
  · unfold lumaOffset
    omega

/-- The luma of the picture comes before its chroma. -/
theorem lumaOffset_lt {dx dy : Nat} (hdx : dx < g.paddedWidth) (hdy : dy < g.paddedHeight) :
    g.lumaOffset dx dy < g.lumaLength := rowOffset_lt hdy hdx

/-- Rows of chroma are written behind the luma. -/
theorem sourceOf?_chromaTransfers_of_lt {layout : PlaneLayout} {src dst : ByteArray}
    {s : ChromaSpan} {t : Transfer} (ht : t ∈ chromaTransfers layout g src dst s) {j : Nat}
    (hj : j < g.lumaLength) : t.sourceOf? j = none := by
  have hstart : g.lumaLength ≤ t.target.start := by
    cases layout with
    | i420 =>
      obtain ⟨row, -, hpart⟩ := List.mem_flatMap.mp ht
      simp only [List.mem_cons, List.not_mem_nil, or_false] at hpart
      rcases hpart with rfl | rfl
      · exact Nat.le_refl _
      · exact Nat.le_add_right _ _
    | nv12 =>
      obtain ⟨row, -, rfl⟩ := List.mem_map.mp ht
      exact Nat.le_refl _
  refine Option.eq_none_iff_forall_ne_some.mpr fun i hi => ?_
  obtain ⟨⟨hle, -⟩, -⟩ := Transfer.sourceOf?_eq_some_iff.mp hi
  omega

/-- A copy writes a luma sample exactly if its point lies in a cut rectangle, and then takes the
sample of the tile. -/
theorem lastSourceOf?_lumaOffset {layout : PlaneLayout} {src dst : ByteArray} {rects : List Rect}
    {dx dy : Nat} (hdx : dx < g.paddedWidth) (hdy : dy < g.paddedHeight) :
    Transfer.lastSourceOf? (transfers layout g src dst rects) (g.lumaOffset dx dy) =
      if g.Damages rects (g.screenColumn dx) (g.screenRow dy) then
        some (g.tileLumaOffset (g.screenColumn dx) (g.screenRow dy))
      else none := by
  have hchroma : Transfer.lastSourceOf? ((g.spans rects).flatMap (chromaTransfers layout g src dst))
      (g.lumaOffset dx dy) = none := by
    refine Transfer.lastSourceOf?_eq_none fun t ht => ?_
    obtain ⟨s, -, hrow⟩ := List.mem_flatMap.mp ht
    exact sourceOf?_chromaTransfers_of_lt hrow (lumaOffset_lt hdx hdy)
  rw [transfers, Transfer.lastSourceOf?_append, hchroma, Option.none_or]
  split
  · next hdamages =>
    obtain ⟨q, hq, hl, hr, ht, hb⟩ := hdamages
    obtain ⟨r, -, hclip⟩ := List.mem_filterMap.mp hq
    apply Transfer.lastSourceOf?_eq_some
    · intro t ht i hi
      obtain ⟨q', -, ⟨r', hclip'⟩, row, -, rfl⟩ := exists_lumaRow_of_mem ht
      exact ((sourceOf?_lumaRow_iff hclip' hdx).mp hi).2
    · have hrow : ∃ row < q.height.toInt.toNat, q.y.toInt + row = g.screenRow dy :=
        ⟨(g.screenRow dy - q.y.toInt).toNat, by omega, by omega⟩
      obtain ⟨row, hlt, hrow⟩ := hrow
      refine ⟨g.lumaRow src q row, List.mem_flatMap.mpr ⟨q, hq, List.mem_map.mpr
        ⟨row, List.mem_range.mpr hlt, rfl⟩⟩, ?_⟩
      rw [(sourceOf?_lumaRow_iff hclip hdx).mpr ⟨⟨hrow, hl, hr⟩, rfl⟩]
      rfl
  · next hnot =>
    refine Transfer.lastSourceOf?_eq_none fun t ht => ?_
    obtain ⟨q, hq, ⟨r, hclip⟩, row, hlt, rfl⟩ := exists_lumaRow_of_mem ht
    refine Option.eq_none_iff_forall_ne_some.mpr fun i hi => hnot ⟨q, hq, ?_⟩
    obtain ⟨⟨hrow, hl, hr⟩, -⟩ := (sourceOf?_lumaRow_iff hclip hdx).mp hi
    exact ⟨hl, hr, by omega, by omega⟩

/-- A luma sample after a copy. -/
theorem luma?_copy {layout : PlaneLayout} {src dst out : ByteArray} {rects : List Rect}
    (h : copy layout g src dst rects = some out) {dx dy : Nat} (hdx : dx < g.paddedWidth)
    (hdy : dy < g.paddedHeight) : g.luma? out dx dy =
      if g.Damages rects (g.screenColumn dx) (g.screenRow dy) then
        g.tileLuma? src (g.screenColumn dx) (g.screenRow dy)
      else g.luma? dst dx dy := by
  rw [luma?, getElem?_of_copy h, lastSourceOf?_lumaOffset hdx hdy]
  split <;> rfl

end FrameEncoder.CopyGeometry
