import FrameEncoder.Picture.RgbConversion
import FrameEncoder.Proofs.Folds
import FrameEncoder.Proofs.Picture.Clipping

/-!
# Conversions stay in their buffers

Converting the damage of a packed tile reads pixels of the tile only and writes bytes of the
converted tile only. Every block that is averaged has at least one pixel in the tile. So a
conversion of a full tile into a buffer with room for it has a result.
-/

namespace FrameEncoder.RgbConversion

namespace Grid

/-- Whether a point lies in a grid. -/
def Has (g : Grid) (px py : Nat) : Prop :=
  g.x ≤ px ∧ px < g.x + g.cols ∧ g.y ≤ py ∧ py < g.y + g.rows

/-- A visit whose every call has a result has one, as long as what holds of the buffer is
kept. -/
theorem exists_visit {g : Grid} {f : Nat → Nat → ByteArray → Option ByteArray}
    {P : ByteArray → Prop} {dst : ByteArray}
    (hf : ∀ px py dst, g.Has px py → P dst → ∃ out, f px py dst = some out ∧ P out)
    (hP : P dst) : ∃ out, g.visit f dst = some out ∧ P out := by
  refine exists_foldlM _ (fun py hpy dst hdst => ?_) hP
  obtain ⟨hy, hy'⟩ := List.mem_range'_1.mp hpy
  refine exists_foldlM _ (fun px hpx dst hdst => ?_) hdst
  obtain ⟨hx, hx'⟩ := List.mem_range'_1.mp hpx
  exact hf px py dst ⟨hx, hx', hy, hy'⟩ hdst

end Grid

namespace Tile

variable {t : Tile}

/-- Whether a packed tile holds all its pixels. -/
def IsFull (t : Tile) : Prop := t.width * t.height * 4 ≤ t.data.size

/-- Whether a buffer holds the luma and the interleaved chroma of a tile. -/
def FitsIn (t : Tile) (dst : ByteArray) : Prop :=
  PixelFormat.nv12.tileLength t.width t.height ≤ dst.size

/-- Every pixel of a full tile has a colour. -/
theorem exists_colourAt? (ht : t.IsFull) {x y : Nat} (hx : x < t.width) (hy : y < t.height) :
    ∃ c, t.colourAt? x y = some c := by
  have hpixel : y * t.width + x < t.width * t.height := rowOffset_lt hy hx
  have hread : ∀ k < 3, ∃ v, (Plane.whole t.data).read? t.data ((y * t.width + x) * 4 + k) =
      some v := by
    intro k hk
    have hin : (y * t.width + x) * 4 + k < t.data.size := by
      unfold IsFull at ht
      omega
    obtain ⟨v, hv, -⟩ := Plane.exists_read? (p := .whole t.data) hin
      (by simpa only [Plane.whole, Nat.zero_add] using hin)
    exact ⟨v, hv⟩
  obtain ⟨a, ha⟩ := hread 0 (by decide)
  obtain ⟨b, hb⟩ := hread 1 (by decide)
  obtain ⟨c, hc⟩ := hread 2 (by decide)
  rw [Nat.add_zero] at ha
  unfold colourAt?
  simp only [ha, hb, hc]
  cases t.format <;> exact ⟨_, rfl⟩

/-- The pixels of a full tile among given ones are all counted. -/
theorem exists_sumOf? (ht : t.IsFull) (ps : List (Nat × Nat)) :
    ∃ sum, t.sumOf? ps =
      some (sum, ps.countP fun p => decide (p.1 < t.width ∧ p.2 < t.height)) := by
  induction ps with
  | nil => exact ⟨_, rfl⟩
  | cons p ps ih =>
    obtain ⟨sum, hsum⟩ := ih
    by_cases hp : p.1 < t.width ∧ p.2 < t.height
    · obtain ⟨c, hc⟩ := exists_colourAt? ht hp.1 hp.2
      refine ⟨c.add sum, ?_⟩
      rw [sumOf?, if_pos hp, hc, hsum, List.countP_cons_of_pos (by simpa using hp)]
    · refine ⟨sum, ?_⟩
      rw [sumOf?, if_neg hp, hsum, List.countP_cons_of_neg (by simpa using hp)]

/-- A block whose first pixel lies in the tile is averaged over at least one pixel. -/
theorem exists_sumOf?_blockPixels (ht : t.IsFull) {cx cy : Nat} (hx : cx * 2 < t.width)
    (hy : cy * 2 < t.height) : ∃ sum n, t.sumOf? (blockPixels cx cy) = some (sum, n) ∧ 0 < n := by
  obtain ⟨sum, hsum⟩ := exists_sumOf? ht (blockPixels cx cy)
  refine ⟨sum, _, hsum, ?_⟩
  rw [blockPixels, List.countP_cons_of_pos (by simpa using And.intro hx hy)]
  exact Nat.succ_pos _

/-- A block whose first pixel lies in the tile has a mean colour. -/
theorem exists_blockMean? (ht : t.IsFull) {cx cy : Nat} (hx : cx * 2 < t.width)
    (hy : cy * 2 < t.height) : ∃ c, t.blockMean? cx cy = some c := by
  obtain ⟨sum, n, hsum, hn⟩ := exists_sumOf?_blockPixels ht hx hy
  refine ⟨sum.mean n, ?_⟩
  unfold blockMean?
  simp only [hsum, if_neg (Nat.ne_of_gt hn)]

/-- The pixels of a cut rectangle lie in the tile. -/
theorem pixels_lt {r q : Rect} (h : r.intersect t.rect = some q) {x y : Nat}
    (hxy : (pixels q).Has x y) : x < t.width ∧ y < t.height := by
  obtain ⟨hl, hr, ht, hb⟩ := (Rect.isOverlap_of_intersect h).within.2
  have hwidth := toInt_ofNat_le t.width
  have hheight := toInt_ofNat_le t.height
  have hzero : (0 : Int32).toInt = 0 := rfl
  simp only [Tile.rect, hzero] at hl hr ht hb
  simp only [Grid.Has, pixels] at hxy
  omega

/-- The blocks of a cut rectangle have both columns and their first row in the tile. -/
theorem blocks_lt {r q : Rect} (h : r.intersect t.rect = some q) {cx cy : Nat}
    (hc : (t.blocks q).Has cx cy) : cx < t.width / 2 ∧ cy * 2 < t.height := by
  have hpos := (Rect.isOverlap_of_intersect h).height_pos
  obtain ⟨hl, hr, ht, hb⟩ := (Rect.isOverlap_of_intersect h).within.2
  have hheight := toInt_ofNat_le t.height
  have hzero : (0 : Int32).toInt = 0 := rfl
  simp only [Tile.rect, hzero] at hl hr ht hb
  simp only [Grid.Has, blocks, pixels] at hc
  omega

/-- The chroma pair of a block lies in the interleaved plane. -/
theorem chromaPair_lt {cx cy : Nat} (hx : cx < t.width / 2) (hy : cy * 2 < t.height) :
    cy * t.width + (cx * 2 + 1) < t.width * PixelFormat.chromaRows t.height := by
  refine rowOffset_lt ?_ (by omega)
  unfold PixelFormat.chromaRows
  omega

/-- The luma of a pixel is written inside the buffer. -/
theorem exists_writeLuma (ht : t.IsFull) {dst : ByteArray} (hd : t.FitsIn dst) {x y : Nat}
    (hx : x < t.width) (hy : y < t.height) :
    ∃ out, t.writeLuma x y dst = some out ∧ out.size = dst.size := by
  obtain ⟨c, hc⟩ := exists_colourAt? ht hx hy
  have hpixel : y * t.width + x < t.width * t.height := rowOffset_lt hy hx
  have hin : 0 + (y * t.width + x) < dst.size := by
    simp only [FitsIn, PixelFormat.tileLength] at hd
    omega
  obtain ⟨out, hout, -⟩ := Plane.exists_write? (p := t.lumaPlane) c.luma hpixel hin
  refine ⟨out, ?_, Plane.size_of_write? hout⟩
  unfold writeLuma
  simp only [hc, hout]

/-- Both chroma bytes of a block are written inside the buffer. -/
theorem exists_writeChroma (ht : t.IsFull) {dst : ByteArray} (hd : t.FitsIn dst) {cx cy : Nat}
    (hx : cx < t.width / 2) (hy : cy * 2 < t.height) :
    ∃ out, t.writeChroma cx cy dst = some out ∧ out.size = dst.size := by
  obtain ⟨c, hc⟩ := exists_blockMean? ht (show cx * 2 < t.width by omega) hy
  have hpair := chromaPair_lt hx hy
  have hwrite : ∀ (buffer : ByteArray) (part : Nat) (v : UInt8), buffer.size = dst.size →
      part < 2 → ∃ out, (t.chromaPlane buffer).write? buffer (cy * t.width + cx * 2 + part) v =
        some out ∧ out.size = dst.size := by
    intro buffer part v hsize hpart
    simp only [FitsIn, PixelFormat.tileLength] at hd
    obtain ⟨out, hout, -⟩ := Plane.exists_write? (p := t.chromaPlane buffer) (b := buffer)
      (i := cy * t.width + cx * 2 + part) v
      (by simp only [chromaPlane, Plane.after]; omega)
      (by simp only [chromaPlane, Plane.after]; omega)
    exact ⟨out, hout, (Plane.size_of_write? hout).trans hsize⟩
  obtain ⟨mid, hmid, hmidSize⟩ := hwrite dst 0 c.chromaU rfl (by decide)
  obtain ⟨out, hout, houtSize⟩ := hwrite mid 1 c.chromaV hmidSize (by decide)
  refine ⟨out, ?_, houtSize⟩
  rw [Nat.add_zero] at hmid
  unfold writeChroma
  simp only [hc, hmid, hout]

/-- A rectangle of the tile is converted inside the buffer. -/
theorem exists_convertRect (ht : t.IsFull) {r q : Rect} (hq : r.intersect t.rect = some q)
    {dst : ByteArray} (hd : t.FitsIn dst) :
    ∃ out, t.convertRect dst q = some out ∧ t.FitsIn out := by
  obtain ⟨mid, hmid, hmidFits⟩ := Grid.exists_visit (g := pixels q) (f := t.writeLuma)
    (P := t.FitsIn) (fun x y dst hxy hdst => by
      obtain ⟨hx, hy⟩ := pixels_lt hq hxy
      obtain ⟨out, hout, hsize⟩ := exists_writeLuma ht hdst hx hy
      exact ⟨out, hout, by rw [FitsIn, hsize]; exact hdst⟩) hd
  obtain ⟨out, hout, houtFits⟩ := Grid.exists_visit (g := t.blocks q) (f := t.writeChroma)
    (P := t.FitsIn) (fun cx cy dst hc hdst => by
      obtain ⟨hx, hy⟩ := blocks_lt hq hc
      obtain ⟨out, hout, hsize⟩ := exists_writeChroma ht hdst hx hy
      exact ⟨out, hout, by rw [FitsIn, hsize]; exact hdst⟩) hmidFits
  refine ⟨out, ?_, houtFits⟩
  unfold convertRect
  simp only [hmid, hout]

/-- The conversion of a full tile into a buffer with room has a result, which has room too. -/
theorem exists_convert (ht : t.IsFull) (rects : List Rect) {dst : ByteArray}
    (hd : t.FitsIn dst) : ∃ out, t.convert rects dst = some out ∧ t.FitsIn out := by
  have hluma : t.width * t.height ≤ dst.size := by
    simp only [FitsIn, PixelFormat.tileLength] at hd
    omega
  rw [convert, if_pos hluma]
  refine exists_foldlM _ (fun q hq dst hdst => ?_) hd
  obtain ⟨r, -, hr⟩ := List.mem_filterMap.mp hq
  exact exists_convertRect ht hr hdst

end Tile

end FrameEncoder.RgbConversion
