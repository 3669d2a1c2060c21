import FrameEncoder.Proofs.Picture.ConvertedBytes
import FrameEncoder.Proofs.Picture.LumaPlane
import Mathlib.Algebra.GroupWithZero.Nat

/-!
# What a conversion makes of each pixel

A conversion decides each byte of its buffer by itself. The luma of a pixel becomes that of the
pixel's colour if some rectangle contains the pixel. The chroma of a block becomes that of the mean
of the block's pixels in the tile if some rectangle contains one of these. All other bytes stay as
they were, among them those below a last odd column, which belongs to no block. So the result
depends on nothing but the pixels that the rectangles contain together.

Levels are also given over unbounded integers. Those of byte colours keep to the limited range, so
none is cut when it becomes a byte.
-/

namespace FrameEncoder.RgbConversion

/-- An integer that is a byte is kept as a byte. -/
theorem toNat_ofInt_of_mem {n : Int} (hle : 0 ≤ n) (hlt : n < 256) :
    ((UInt8.ofInt n).toNat : Int) = n := by
  rw [UInt8.ofInt, UInt8.toNat_ofNat']
  omega

namespace Colour

/-- Whether every channel of a colour is a byte. -/
structure IsBytewise (c : Colour) : Prop where
  red_le : c.red ≤ 255
  green_le : c.green ≤ 255
  blue_le : c.blue ≤ 255

/-- The luma level of a colour. -/
def lumaLevel (c : Colour) : Int :=
  ((66 * (c.red : Int) + 129 * c.green + 25 * c.blue + 128) >>> (8 : Nat)) + 16

/-- The level of the blue difference of a colour. -/
def blueLevel (c : Colour) : Int :=
  ((-38 * (c.red : Int) - 74 * c.green + 112 * c.blue + 128) >>> (8 : Nat)) + 128

/-- The level of the red difference of a colour. -/
def redLevel (c : Colour) : Int :=
  ((112 * (c.red : Int) - 94 * c.green - 18 * c.blue + 128) >>> (8 : Nat)) + 128

/-- Whether the bytes of a colour are its levels, which keep to the limited range. -/
structure KeepsRange (c : Colour) : Prop where
  luma_eq : (c.luma.toNat : Int) = c.lumaLevel
  luma_mem : 16 ≤ c.lumaLevel ∧ c.lumaLevel ≤ 235
  chromaU_eq : (c.chromaU.toNat : Int) = c.blueLevel
  blue_mem : 16 ≤ c.blueLevel ∧ c.blueLevel ≤ 240
  chromaV_eq : (c.chromaV.toNat : Int) = c.redLevel
  red_mem : 16 ≤ c.redLevel ∧ c.redLevel ≤ 240

/-- The levels of a byte colour keep to the limited range. -/
theorem IsBytewise.keepsRange {c : Colour} (h : c.IsBytewise) : c.KeepsRange := by
  obtain ⟨hr, hg, hb⟩ := h
  have hluma : 16 ≤ c.lumaLevel ∧ c.lumaLevel ≤ 235 := by
    rw [lumaLevel, Int.shiftRight_eq_div_pow]
    omega
  have hblue : 16 ≤ c.blueLevel ∧ c.blueLevel ≤ 240 := by
    rw [blueLevel, Int.shiftRight_eq_div_pow]
    omega
  have hred : 16 ≤ c.redLevel ∧ c.redLevel ≤ 240 := by
    rw [redLevel, Int.shiftRight_eq_div_pow]
    omega
  refine ⟨?_, hluma, ?_, hblue, ?_, hred⟩
  · have hlt : (66 * c.red + 129 * c.green + 25 * c.blue + 128) / 256 + 16 < UInt8.size := by
      unfold UInt8.size
      omega
    rw [luma, UInt8.toNat_ofNat_of_lt' hlt, lumaLevel, Int.shiftRight_eq_div_pow]
    rfl
  · rw [← toNat_ofInt_of_mem (n := c.blueLevel) (by omega) (by omega), blueLevel,
      Int.shiftRight_eq_div_pow]
    rfl
  · rw [← toNat_ofInt_of_mem (n := c.redLevel) (by omega) (by omega), redLevel,
      Int.shiftRight_eq_div_pow]
    rfl

/-- The sum of colours, channel by channel. -/
def total (cs : List Colour) : Colour :=
  ⟨(cs.map red).sum, (cs.map green).sum, (cs.map blue).sum⟩

/-- The mean of colours, channel by channel and rounded down. -/
def meanOf (cs : List Colour) : Colour := (total cs).mean cs.length

/-- The mean of byte colours is one. -/
theorem isBytewise_meanOf {cs : List Colour} (h : ∀ c ∈ cs, c.IsBytewise) :
    (meanOf cs).IsBytewise := by
  have hchannel : ∀ f : Colour → Nat, (∀ c ∈ cs, f c ≤ 255) →
      (cs.map f).sum / cs.length ≤ 255 := by
    intro f hf
    have hsum : (cs.map f).sum ≤ cs.length * 255 := by
      clear h
      induction cs with
      | nil => exact Nat.zero_le _
      | cons c cs ih =>
        have hc := hf c List.mem_cons_self
        have hcs := ih fun c hc => hf c (List.mem_cons_of_mem _ hc)
        rw [List.map_cons, List.sum_cons, List.length_cons]
        omega
    exact Nat.div_le_of_le_mul hsum
  exact ⟨hchannel red fun c hc => (h c hc).red_le, hchannel green fun c hc => (h c hc).green_le,
    hchannel blue fun c hc => (h c hc).blue_le⟩

end Colour

/-- Whether some rectangle contains a pixel. -/
def Covers (rects : List Rect) (x y : Nat) : Prop := ∃ r ∈ rects, r.Has x y

instance (rects : List Rect) (x y : Nat) : Decidable (Covers rects x y) :=
  inferInstanceAs (Decidable (∃ r ∈ rects, r.Has x y))

/-- A run touches half a position exactly if it holds one of the two positions of that half. -/
theorem half_touched_iff (start half : Nat) {extent : Nat} (hpos : 0 < extent) :
    (start / 2 ≤ half ∧ half < (start + extent + 1) / 2) ↔
      ∃ k < 2, start ≤ half * 2 + k ∧ half * 2 + k < start + extent := by
  constructor
  · rintro ⟨hle, hlt⟩
    by_cases hstart : start ≤ half * 2
    · exact ⟨0, by decide, by omega, by omega⟩
    · exact ⟨1, by decide, by omega, by omega⟩
  · rintro ⟨k, hk, hle, hlt⟩
    omega

namespace Tile

variable {t : Tile}

/-- The colour of a pixel, by the bytes of the tile. -/
def pixel (t : Tile) (x y : Nat) : Colour :=
  let channel (k : Nat) : Nat :=
    (Bytes.byteAt (Bytes.toList t.data) ((y * t.width + x) * 4 + k)).toNat
  match t.format with
  | .rgba => ⟨channel 0, channel 1, channel 2⟩
  | _ => ⟨channel 2, channel 1, channel 0⟩

/-- The pixels of a block that lie in the tile. -/
def pixelsOf (t : Tile) (cx cy : Nat) : List (Nat × Nat) :=
  (blockPixels cx cy).filter fun p => p.1 < t.width ∧ p.2 < t.height

/-- The mean colour of the pixels of a block that lie in the tile. -/
def blockColour (t : Tile) (cx cy : Nat) : Colour :=
  .meanOf ((t.pixelsOf cx cy).map fun p => t.pixel p.1 p.2)

/-- Whether some rectangle contains a pixel of a block that lies in the tile. -/
def Touches (t : Tile) (rects : List Rect) (cx cy : Nat) : Prop :=
  ∃ p ∈ t.pixelsOf cx cy, Covers rects p.1 p.2

instance (t : Tile) (rects : List Rect) (cx cy : Nat) : Decidable (t.Touches rects cx cy) :=
  inferInstanceAs (Decidable (∃ p ∈ t.pixelsOf cx cy, Covers rects p.1 p.2))

/-- The colour of a pixel is a byte colour. -/
theorem isBytewise_pixel (t : Tile) (x y : Nat) : (t.pixel x y).IsBytewise := by
  have hbyte : ∀ v : UInt8, v.toNat ≤ 255 := fun v => Nat.le_of_lt_succ v.toNat_lt
  unfold pixel
  cases t.format <;> exact ⟨hbyte _, hbyte _, hbyte _⟩

/-- So is the mean colour of a block. -/
theorem isBytewise_blockColour (t : Tile) (cx cy : Nat) : (t.blockColour cx cy).IsBytewise := by
  apply Colour.isBytewise_meanOf
  intro c hc
  obtain ⟨p, -, rfl⟩ := List.mem_map.mp hc
  exact t.isBytewise_pixel p.1 p.2

/-- The pixels of a full tile are read as they are. -/
theorem colourAt?_eq (ht : t.IsFull) {x y : Nat} (hx : x < t.width) (hy : y < t.height) :
    t.colourAt? x y = some (t.pixel x y) := by
  have hpixel : y * t.width + x < t.width * t.height := rowOffset_lt hy hx
  have hread : ∀ k < 3, (Plane.whole t.data).read? t.data ((y * t.width + x) * 4 + k) =
      some (Bytes.byteAt (Bytes.toList t.data) ((y * t.width + x) * 4 + k)) := by
    intro k hk
    have hin : (y * t.width + x) * 4 + k < (Bytes.toList t.data).length := by
      unfold IsFull at ht
      rw [Bytes.length_toList]
      omega
    refine Plane.read?_eq_some_iff.mpr ⟨hin, ?_⟩
    rw [Plane.whole, Nat.zero_add, Bytes.byteAt, List.getElem?_eq_getElem hin, Option.getD_some]
  have hfirst := hread 0 (by decide)
  rw [Nat.add_zero] at hfirst
  unfold colourAt? pixel
  simp only [hfirst, hread 1 (by decide), hread 2 (by decide)]
  cases t.format <;> rfl

/-- The pixels of a full tile among given ones are added up. -/
theorem sumOf?_eq (ht : t.IsFull) (ps : List (Nat × Nat)) :
    let inside := ps.filter fun p => p.1 < t.width ∧ p.2 < t.height
    t.sumOf? ps = some (.total (inside.map fun p => t.pixel p.1 p.2), inside.length) := by
  induction ps with
  | nil => rfl
  | cons p ps ih =>
    by_cases hp : p.1 < t.width ∧ p.2 < t.height
    · rw [sumOf?, if_pos hp, colourAt?_eq ht hp.1 hp.2, ih,
        List.filter_cons_of_pos (by simpa using hp)]
      rfl
    · rw [sumOf?, if_neg hp, ih, List.filter_cons_of_neg (by simpa using hp)]

/-- The pixels of a block that lie in the tile, by their parts. -/
theorem mem_pixelsOf_iff {cx cy x y : Nat} :
    (x, y) ∈ t.pixelsOf cx cy ↔
      (x < t.width ∧ y < t.height) ∧ ∃ k < 2, ∃ l < 2, x = cx * 2 + k ∧ y = cy * 2 + l := by
  simp only [pixelsOf, blockPixels, List.mem_filter, List.mem_cons, List.not_mem_nil, or_false,
    Prod.mk.injEq, decide_eq_true_eq]
  constructor
  · rintro ⟨(⟨hx, hy⟩ | ⟨hx, hy⟩ | ⟨hx, hy⟩ | ⟨hx, hy⟩), hin⟩
    · exact ⟨hin, 0, by decide, 0, by decide, hx, hy⟩
    · exact ⟨hin, 1, by decide, 0, by decide, hx, hy⟩
    · exact ⟨hin, 0, by decide, 1, by decide, hx, hy⟩
    · exact ⟨hin, 1, by decide, 1, by decide, hx, hy⟩
  · rintro ⟨hin, k, hk, l, hl, hx, hy⟩
    exact ⟨by omega, hin⟩

/-- A block whose first pixel lies in a full tile has the mean colour of its pixels there. -/
theorem blockMean?_eq (ht : t.IsFull) {cx cy : Nat} (hx : cx * 2 < t.width)
    (hy : cy * 2 < t.height) : t.blockMean? cx cy = some (t.blockColour cx cy) := by
  have hfirst : (cx * 2, cy * 2) ∈ t.pixelsOf cx cy :=
    mem_pixelsOf_iff.mpr ⟨⟨hx, hy⟩, 0, by decide, 0, by decide, rfl, rfl⟩
  have hsome : (t.pixelsOf cx cy).length ≠ 0 := fun hnone =>
    List.not_mem_nil (List.eq_nil_of_length_eq_zero hnone ▸ hfirst)
  have hsum : t.sumOf? (blockPixels cx cy) = some (.total ((t.pixelsOf cx cy).map fun p =>
      t.pixel p.1 p.2), (t.pixelsOf cx cy).length) := sumOf?_eq ht _
  unfold blockMean?
  simp only [hsum, if_neg hsome]
  rw [blockColour, Colour.meanOf, List.length_map]

/-- The pixels of a tile are those a rectangle for the tile contains. -/
theorem rect_has_iff (hwidth : t.width < 2147483648) (hheight : t.height < 2147483648)
    (x y : Nat) : t.rect.Has x y ↔ x < t.width ∧ y < t.height := by
  have hhas : t.rect.Has x y ↔
      (0 ≤ (x : Int) ∧ (x : Int) < t.width) ∧ 0 ≤ (y : Int) ∧ (y : Int) < t.height :=
    CopyGeometry.sourceRect_has_iff (g := ⟨0, 0, t.width, t.height, 0, 0⟩) hwidth hheight x y
  rw [hhas]
  omega

/-- Cutting a rectangle to the tile leaves its pixels in the tile. -/
theorem exists_cut_has_iff (hwidth : t.width < 2147483648) (hheight : t.height < 2147483648)
    (r : Rect) (x y : Nat) :
    (∃ q, r.intersect t.rect = some q ∧ q.Has x y) ↔ r.Has x y ∧ x < t.width ∧ y < t.height := by
  rw [← rect_has_iff hwidth hheight, Rect.exists_intersect_has_iff]
  constructor
  · rintro ⟨hr, htile, -⟩
    exact ⟨hr, htile⟩
  · rintro ⟨hr, htile⟩
    exact ⟨hr, htile, Rect.lt_coordinateEnd_of_has rfl rfl htile⟩

/-- A cut rectangle has no negative coordinate and is not empty. -/
theorem cut_nonneg {r q : Rect} (h : r.intersect t.rect = some q) :
    (0 ≤ q.x.toInt ∧ 0 < q.width.toInt) ∧ 0 ≤ q.y.toInt ∧ 0 < q.height.toInt := by
  obtain ⟨hx, hy, hw, hh, -, -⟩ := Rect.isOverlap_of_intersect h
  have hzero : (0 : Int32).toInt = 0 := rfl
  simp only [rect, hzero] at hx hy
  omega

/-- The pixels of a cut rectangle are those it contains. -/
theorem pixels_has_iff {r q : Rect} (h : r.intersect t.rect = some q) (x y : Nat) :
    (pixels q).Has x y ↔ q.Has x y := by
  obtain ⟨⟨hx, hw⟩, hy, hh⟩ := cut_nonneg h
  simp only [Grid.Has, pixels, Rect.Has]
  omega

/-- The blocks of a cut rectangle are those with a pixel that it contains. -/
theorem blocks_has_iff (hwidth : t.width < 2147483648) (hheight : t.height < 2147483648)
    {r q : Rect} (h : r.intersect t.rect = some q) (cx cy : Nat) :
    (t.blocks q).Has cx cy ↔
      cx < t.width / 2 ∧ ∃ p ∈ t.pixelsOf cx cy, q.Has p.1 p.2 := by
  obtain ⟨⟨hx, hw⟩, hy, hh⟩ := cut_nonneg h
  have hcolumns := half_touched_iff q.x.toInt.toNat cx (show 0 < q.width.toInt.toNat by omega)
  have hrows := half_touched_iff q.y.toInt.toNat cy (show 0 < q.height.toInt.toNat by omega)
  have hinside : ∀ x y : Nat, q.Has x y → x < t.width ∧ y < t.height := fun x y hhas =>
    ((exists_cut_has_iff hwidth hheight r x y).mp ⟨q, h, hhas⟩).2
  have hgrid : (t.blocks q).Has cx cy ↔ cx < t.width / 2 ∧
      (q.x.toInt.toNat / 2 ≤ cx ∧ cx < (q.x.toInt.toNat + q.width.toInt.toNat + 1) / 2) ∧
      q.y.toInt.toNat / 2 ≤ cy ∧ cy < (q.y.toInt.toNat + q.height.toInt.toNat + 1) / 2 := by
    simp only [Grid.Has, blocks, pixels]
    omega
  rw [hgrid, hcolumns, hrows]
  refine and_congr_right fun _ => ⟨?_, ?_⟩
  · rintro ⟨⟨k, hk, hleft, hright⟩, l, hl, htop, hbottom⟩
    have hhas : q.Has ((cx * 2 + k : Nat) : Int) ((cy * 2 + l : Nat) : Int) := by
      unfold Rect.Has
      omega
    exact ⟨(cx * 2 + k, cy * 2 + l),
      mem_pixelsOf_iff.mpr ⟨hinside _ _ hhas, k, hk, l, hl, rfl, rfl⟩, hhas⟩
  · rintro ⟨⟨x, y⟩, hp, hhas⟩
    obtain ⟨-, k, hk, l, hl, rfl, rfl⟩ := mem_pixelsOf_iff.mp hp
    unfold Rect.Has at hhas
    exact ⟨⟨k, hk, by omega, by omega⟩, l, hl, by omega, by omega⟩

/-- A conversion reaches the luma of the pixels that the rectangles contain and the chroma of the
blocks they touch. -/
theorem reaches_iff (hwidth : t.width < 2147483648) (hheight : t.height < 2147483648)
    {rects : List Rect} {i : Nat} :
    t.Reaches rects i ↔
      (∃ x < t.width, ∃ y < t.height, Covers rects x y ∧ i = t.lumaOffset x y) ∨
        ∃ cx < t.width / 2, ∃ cy, t.Touches rects cx cy ∧
          ∃ part < 2, i = t.chromaOffset cx cy part := by
  constructor
  · rintro ⟨q, hq, hreaches⟩
    obtain ⟨r, hr, hcut⟩ := List.mem_filterMap.mp hq
    have hcovers : ∀ x y : Nat, q.Has x y → Covers rects x y ∧ x < t.width ∧ y < t.height :=
      fun x y hhas =>
        have hin := (exists_cut_has_iff hwidth hheight r x y).mp ⟨q, hcut, hhas⟩
        ⟨⟨r, hr, hin.1⟩, hin.2⟩
    rcases hreaches with ⟨x, y, hxy, rfl⟩ | ⟨cx, cy, hc, part, hpart, rfl⟩
    · obtain ⟨hcovered, hx, hy⟩ := hcovers x y ((pixels_has_iff hcut x y).mp hxy)
      exact .inl ⟨x, hx, y, hy, hcovered, rfl⟩
    · obtain ⟨hcx, p, hp, hhas⟩ := (blocks_has_iff hwidth hheight hcut cx cy).mp hc
      exact .inr ⟨cx, hcx, cy, ⟨p, hp, (hcovers p.1 p.2 hhas).1⟩, part, hpart, rfl⟩
  · have hcut : ∀ {x y : Nat} {r : Rect}, r.Has x y → x < t.width → y < t.height →
        ∃ q, r.intersect t.rect = some q ∧ q.Has x y := fun hhas hx hy =>
      (exists_cut_has_iff hwidth hheight _ _ _).mpr ⟨hhas, hx, hy⟩
    rintro (⟨x, hx, y, hy, ⟨r, hr, hhas⟩, rfl⟩ |
      ⟨cx, hcx, cy, ⟨⟨x, y⟩, hp, r, hr, hhas⟩, part, hpart, rfl⟩)
    · obtain ⟨q, hq, hhas⟩ := hcut hhas hx hy
      exact ⟨q, List.mem_filterMap.mpr ⟨r, hr, hq⟩,
        .inl ⟨x, y, (pixels_has_iff hq x y).mpr hhas, rfl⟩⟩
    · obtain ⟨⟨hx, hy⟩, -⟩ := mem_pixelsOf_iff.mp hp
      obtain ⟨q, hq, hhas⟩ := hcut hhas hx hy
      exact ⟨q, List.mem_filterMap.mpr ⟨r, hr, hq⟩, .inr ⟨cx, cy,
        (blocks_has_iff hwidth hheight hq cx cy).mpr ⟨hcx, (x, y), hp, hhas⟩, part, hpart, rfl⟩⟩

/-- The luma of the tile ends before its chroma. -/
theorem lumaOffset_ne_chromaOffset {x y cx cy part : Nat} (hx : x < t.width) (hy : y < t.height) :
    t.lumaOffset x y ≠ t.chromaOffset cx cy part := by
  have hluma : t.lumaOffset x y < t.width * t.height := rowOffset_lt hy hx
  unfold chromaOffset
  omega

/-- The luma of a pixel is reached exactly if some rectangle contains the pixel. -/
theorem reaches_lumaOffset_iff (hwidth : t.width < 2147483648) (hheight : t.height < 2147483648)
    (rects : List Rect) {x y : Nat} (hx : x < t.width) (hy : y < t.height) :
    t.Reaches rects (t.lumaOffset x y) ↔ Covers rects x y := by
  rw [reaches_iff hwidth hheight]
  constructor
  · rintro (⟨x', hx', y', -, hcovered, hsame⟩ | ⟨cx, -, cy, -, part, -, hsame⟩)
    · obtain ⟨rfl, rfl⟩ := rowOffset_inj hx hx' hsame
      exact hcovered
    · exact absurd hsame (lumaOffset_ne_chromaOffset hx hy)
  · intro hcovered
    exact .inl ⟨x, hx, y, hy, hcovered, rfl⟩

/-- The chroma of a block is reached exactly if the rectangles touch the block. -/
theorem reaches_chromaOffset_iff (hwidth : t.width < 2147483648) (hheight : t.height < 2147483648)
    (rects : List Rect) {cx part : Nat} (hcx : cx < t.width / 2) (cy : Nat) (hpart : part < 2) :
    t.Reaches rects (t.chromaOffset cx cy part) ↔ t.Touches rects cx cy := by
  rw [reaches_iff hwidth hheight]
  constructor
  · rintro (⟨x, hx, y, hy, -, hsame⟩ | ⟨cx', hcx', cy', htouched, part', hpart', hsame⟩)
    · exact absurd hsame.symm (lumaOffset_ne_chromaOffset hx hy)
    · obtain ⟨hcolumn, rfl⟩ := rowOffset_inj (show cx * 2 + part < t.width by omega)
        (show cx' * 2 + part' < t.width by omega) (Nat.add_left_cancel hsame)
      obtain rfl : cx = cx' := by omega
      exact htouched
  · intro htouched
    exact .inr ⟨cx, hcx, cy, htouched, part, hpart, rfl⟩

/-- A block that is touched has its first row in the tile. -/
theorem Touches.row_lt {rects : List Rect} {cx cy : Nat} (h : t.Touches rects cx cy) :
    cy < PixelFormat.chromaRows t.height := by
  obtain ⟨⟨x, y⟩, hp, -⟩ := h
  obtain ⟨⟨-, hy⟩, -, -, l, -, -, rfl⟩ := mem_pixelsOf_iff.mp hp
  unfold PixelFormat.chromaRows
  omega

/-- What a conversion makes of a buffer, byte by byte. -/
structure ShowsDamage (t : Tile) (rects : List Rect) (dst out : ByteArray) : Prop where
  size_eq : out.size = dst.size
  luma : ∀ x < t.width, ∀ y < t.height, (Bytes.toList out)[t.lumaOffset x y]? =
    if Covers rects x y then some (t.pixel x y).luma
    else (Bytes.toList dst)[t.lumaOffset x y]?
  chromaU : ∀ cx < t.width / 2, ∀ cy < PixelFormat.chromaRows t.height,
    (Bytes.toList out)[t.chromaOffset cx cy 0]? =
      if t.Touches rects cx cy then some (t.blockColour cx cy).chromaU
      else (Bytes.toList dst)[t.chromaOffset cx cy 0]?
  chromaV : ∀ cx < t.width / 2, ∀ cy < PixelFormat.chromaRows t.height,
    (Bytes.toList out)[t.chromaOffset cx cy 1]? =
      if t.Touches rects cx cy then some (t.blockColour cx cy).chromaV
      else (Bytes.toList dst)[t.chromaOffset cx cy 1]?
  /-- The bytes that belong to no pixel and to no block. -/
  rest : ∀ i, (∀ x < t.width, ∀ y < t.height, i ≠ t.lumaOffset x y) →
    (∀ cx < t.width / 2, ∀ cy < PixelFormat.chromaRows t.height, ∀ part < 2,
      i ≠ t.chromaOffset cx cy part) → (Bytes.toList out)[i]? = (Bytes.toList dst)[i]?

variable {rects : List Rect} {dst out : ByteArray}

/-- A byte of the chroma of a block after a conversion. -/
theorem getElem?_convert_chromaOffset (hwidth : t.width < 2147483648)
    (hheight : t.height < 2147483648) (ht : t.IsFull) (h : t.convert rects dst = some out)
    {cx cy part : Nat} (hcx : cx < t.width / 2) (hcy : cy < PixelFormat.chromaRows t.height)
    (hpart : part < 2) :
    (Bytes.toList out)[t.chromaOffset cx cy part]? =
      if t.Touches rects cx cy then
        some ((if part = 0 then Colour.chromaU else Colour.chromaV) (t.blockColour cx cy))
      else (Bytes.toList dst)[t.chromaOffset cx cy part]? := by
  have hreaches := reaches_chromaOffset_iff hwidth hheight rects hcx cy hpart
  split
  · next htouched =>
    have hbyte : t.IsConvertedAt (t.chromaOffset cx cy part) out :=
      isConvertedAt_of_convert h (hreaches.mpr htouched)
    have hrow : cy * 2 < t.height := by
      unfold PixelFormat.chromaRows at hcy
      omega
    rw [hbyte, byteAt?_chromaOffset hcx hpart, blockMean?_eq ht (by omega) hrow, Option.map_some]
  · next huntouched => exact getElem?_of_convert (mt hreaches.mp huntouched) h

/-- A conversion of a full tile decides each byte by the pixels the rectangles contain. -/
theorem showsDamage_of_convert (hwidth : t.width < 2147483648) (hheight : t.height < 2147483648)
    (ht : t.IsFull) (h : t.convert rects dst = some out) : t.ShowsDamage rects dst out where
  size_eq := size_of_convert h
  luma x hx y hy := by
    have hreaches := reaches_lumaOffset_iff hwidth hheight rects hx hy
    split
    · next hcovered =>
      have hbyte : t.IsConvertedAt (t.lumaOffset x y) out :=
        isConvertedAt_of_convert h (hreaches.mpr hcovered)
      rw [hbyte, byteAt?_lumaOffset hx hy, colourAt?_eq ht hx hy, Option.map_some]
    · next huncovered => exact getElem?_of_convert (mt hreaches.mp huncovered) h
  chromaU cx hcx cy hcy :=
    getElem?_convert_chromaOffset hwidth hheight ht h hcx hcy Nat.two_pos
  chromaV cx hcx cy hcy :=
    getElem?_convert_chromaOffset hwidth hheight ht h hcx hcy Nat.one_lt_two
  rest i hluma hchroma := by
    refine getElem?_of_convert (fun hreaches => ?_) h
    rcases (reaches_iff hwidth hheight).mp hreaches with
      ⟨x, hx, y, hy, -, hsame⟩ | ⟨cx, hcx, cy, htouched, part, hpart, hsame⟩
    · exact hluma x hx y hy hsame
    · exact hchroma cx hcx cy htouched.row_lt part hpart hsame

/-- Conversions of rectangles that contain the same pixels of the tile have the same result. -/
theorem convert_congr (hwidth : t.width < 2147483648) (hheight : t.height < 2147483648)
    {others : List Rect} {out' : ByteArray}
    (hsame : ∀ x < t.width, ∀ y < t.height, Covers rects x y ↔ Covers others x y)
    (h : t.convert rects dst = some out) (h' : t.convert others dst = some out') :
    out = out' := by
  have htouches : ∀ cx cy, t.Touches rects cx cy ↔ t.Touches others cx cy := by
    intro cx cy
    refine exists_congr fun p => and_congr_right fun hp => ?_
    obtain ⟨⟨hx, hy⟩, -⟩ := mem_pixelsOf_iff.mp hp
    exact hsame p.1 hx p.2 hy
  have hreaches : ∀ i, t.Reaches rects i ↔ t.Reaches others i := by
    intro i
    rw [reaches_iff hwidth hheight, reaches_iff hwidth hheight]
    refine or_congr (exists_congr fun x => and_congr_right fun hx => exists_congr fun y =>
      and_congr_right fun hy => and_congr_left' (hsame x hx y hy)) ?_
    simp only [htouches]
  refine Bytes.ext (List.ext_getElem? fun i => ?_)
  by_cases hi : t.Reaches rects i
  · have hbyte : t.IsConvertedAt i out := isConvertedAt_of_convert h hi
    have hbyte' : t.IsConvertedAt i out' := isConvertedAt_of_convert h' ((hreaches i).mp hi)
    exact hbyte.trans hbyte'.symm
  · rw [getElem?_of_convert hi h, getElem?_of_convert (mt (hreaches i).mpr hi) h']

/-- The conversion of a full tile of 32-bit sizes into a buffer with room has a result. It shows the
damage byte by byte and is the same for all rectangles that contain the same pixels of the tile. The
bytes it writes are the levels of their colours, in the limited range. -/
theorem convert_pixels (hwidth : t.width < 2147483648) (hheight : t.height < 2147483648)
    (ht : t.IsFull) (hd : t.FitsIn dst) (rects : List Rect) :
    ∃ out, t.convert rects dst = some out ∧ t.ShowsDamage rects dst out ∧
      (∀ others : List Rect,
        (∀ x < t.width, ∀ y < t.height, Covers rects x y ↔ Covers others x y) →
          t.convert others dst = some out) ∧
      (∀ x y, (t.pixel x y).KeepsRange) ∧ ∀ cx cy, (t.blockColour cx cy).KeepsRange := by
  obtain ⟨out, hout, -⟩ := exists_convert ht rects hd
  refine ⟨out, hout, showsDamage_of_convert hwidth hheight ht hout, fun others hsame => ?_,
    fun x y => (t.isBytewise_pixel x y).keepsRange,
    fun cx cy => (t.isBytewise_blockColour cx cy).keepsRange⟩
  obtain ⟨out', hout', -⟩ := exists_convert ht others hd
  rw [hout', convert_congr hwidth hheight hsame hout hout']

/-- A tile of three by three pixels whose first pixel of the last row is damaged: its luma is
converted, and so is the chroma of its block, which has two pixels. The last byte of the chroma row
belongs to no block. Two rectangles that contain no other pixel of the tile have the same result. -/
theorem convert_pixels_oddEdge :
    let t : Tile := ⟨Bytes.generate 36 fun i => UInt8.ofNat (7 * i), .bgra, 3, 3⟩
    let blank := Bytes.zeros 15
    ∃ out, t.convert [⟨0, 2, 1, 1⟩] blank = some out ∧
      t.convert [⟨-5, 2, 6, 9⟩, ⟨0, 2, 1, 1⟩] blank = some out ∧
      (Bytes.toList out)[6]? = some 168 ∧ (Bytes.toList out)[7]? = some 0 ∧
        (Bytes.toList out)[12]? = some 124 ∧ (Bytes.toList out)[14]? = some 0 := by
  intro t blank
  have hfull : t.IsFull := by
    rw [IsFull, Bytes.size_generate]
    decide
  have hfits : t.FitsIn blank := by
    rw [FitsIn, Bytes.size_zeros]
    decide
  have hblank : Bytes.toList blank = List.replicate 15 0 := Bytes.toList_zeros 15
  obtain ⟨out, hout, hshows, hsame, -⟩ :=
    convert_pixels (t := t) (by decide) (by decide) hfull hfits [⟨0, 2, 1, 1⟩]
  refine ⟨out, hout, hsame _ (by decide), ?_, ?_, ?_, ?_⟩
  · rw [show 6 = t.lumaOffset 0 2 from rfl, hshows.luma 0 (by decide) 2 (by decide),
      if_pos (by decide)]
    decide +kernel
  · rw [show 7 = t.lumaOffset 1 2 from rfl, hshows.luma 1 (by decide) 2 (by decide),
      if_neg (by decide), hblank]
    rfl
  · rw [show 12 = t.chromaOffset 0 1 0 from rfl, hshows.chromaU 0 (by decide) 1 (by decide),
      if_pos (by decide)]
    decide +kernel
  · rw [hshows.rest 14 (by decide) (by decide), hblank]
    rfl

end Tile

end FrameEncoder.RgbConversion
