import FrameEncoder.Proofs.Picture.ChromaPlanes

/-!
# Chroma of damaged samples

A damaged rectangle takes along the chroma of half its size, rounded up, from the chroma of its
corner on. A rectangle that starts at an odd column and has an even width reaches one chroma
column further than that, and likewise for rows: the chroma of its last column or row stays as it
was, unless another rectangle takes it along. All other damaged samples get the chroma of the
tile.
-/

namespace FrameEncoder

namespace Rect

/-- Whether the chroma sample of a luma sample is among those a cut rectangle takes along. -/
def TakesChroma (q : Rect) (x y : Nat) : Prop :=
  (q.x.toInt.toNat / 2 ≤ x / 2 ∧
      x / 2 < q.x.toInt.toNat / 2 + (q.width.toInt.toNat + 1) / 2) ∧
    q.y.toInt.toNat / 2 ≤ y / 2 ∧
      y / 2 < q.y.toInt.toNat / 2 + (q.height.toInt.toNat + 1) / 2

instance (q : Rect) (x y : Nat) : Decidable (q.TakesChroma x y) :=
  inferInstanceAs (Decidable (_ ∧ _))

/-- Whether a run from an odd start on has an even extent and ends with a position. -/
def OddRunEndsAt (start extent : Int) (i : Nat) : Prop :=
  start % 2 = 1 ∧ extent % 2 = 0 ∧ (i : Int) = start + extent - 1

instance (start extent : Int) (i : Nat) : Decidable (OddRunEndsAt start extent i) :=
  inferInstanceAs (Decidable (_ ∧ _))

end Rect

namespace CopyGeometry

variable {g : CopyGeometry}

/-- Whether a copy copies a luma sample: it lies in a cut rectangle. -/
def Copies (g : CopyGeometry) (rects : List Rect) (x y : Nat) : Prop :=
  ∃ q ∈ rects.filterMap g.clip, q.Has x y

instance (g : CopyGeometry) (rects : List Rect) (x y : Nat) : Decidable (g.Copies rects x y) :=
  inferInstanceAs (Decidable (∃ q ∈ rects.filterMap g.clip, q.Has x y))

/-- Whether a copy takes along the chroma of a luma sample. -/
def TakesChroma (g : CopyGeometry) (rects : List Rect) (x y : Nat) : Prop :=
  ∃ q ∈ rects.filterMap g.clip, q.TakesChroma x y

instance (g : CopyGeometry) (rects : List Rect) (x y : Nat) :
    Decidable (g.TakesChroma rects x y) :=
  inferInstanceAs (Decidable (∃ q ∈ rects.filterMap g.clip, q.TakesChroma x y))

/-- The chroma column of a luma column in the picture. -/
def chromaColumn (g : CopyGeometry) (x : Nat) : Nat := ((x : Int) - g.left.toInt).toNat / 2

/-- The chroma row of a luma row in the picture. -/
def chromaRow (g : CopyGeometry) (y : Nat) : Nat := ((y : Int) - g.top.toInt).toNat / 2

/-- Whether a luma sample lies in the picture. -/
def InPicture (g : CopyGeometry) (x y : Nat) : Prop :=
  (g.left.toInt ≤ x ∧ (x : Int) < g.left.toInt + g.paddedWidth) ∧
    g.top.toInt ≤ y ∧ (y : Int) < g.top.toInt + g.paddedHeight

/-- A copied sample lies in the tile and in the picture. -/
theorem inPicture_of_copies {rects : List Rect} {x y : Nat} (h : g.Copies rects x y) :
    (x < g.tileWidth ∧ y < g.tileHeight) ∧ g.InPicture x y := by
  obtain ⟨q, hq, hl, hr, ht, hb⟩ := h
  obtain ⟨r, -, hclip⟩ := List.mem_filterMap.mp hq
  obtain ⟨hx, hy⟩ := isCutSpan_of_clip hclip
  have hxt := hx.le_tile
  have hyt := hy.le_tile
  have hxo := hx.origin_le
  have hyo := hy.origin_le
  have hxp := hx.le_picture
  have hyp := hy.le_picture
  unfold InPicture
  omega

/-- Whether the sizes of a copy are 32-bit values. -/
structure HasSizes32 (g : CopyGeometry) : Prop where
  tileWidth_lt : g.tileWidth < 2147483648
  tileHeight_lt : g.tileHeight < 2147483648
  paddedWidth_lt : g.paddedWidth < 2147483648
  paddedHeight_lt : g.paddedHeight < 2147483648

/-- For sizes of 32 bits, a sample is copied exactly if it lies in the tile, in the picture and in
some rectangle. -/
theorem copies_iff (h32 : g.HasSizes32) (rects : List Rect) (x y : Nat) :
    g.Copies rects x y ↔
      (x < g.tileWidth ∧ y < g.tileHeight) ∧ g.InPicture x y ∧ ∃ r ∈ rects, r.Has x y := by
  have hdamages := g.damages_iff rects x y
  rw [sourceRect_has_iff h32.tileWidth_lt h32.tileHeight_lt,
    targetRect_has_iff h32.paddedWidth_lt h32.paddedHeight_lt, and_assoc] at hdamages
  refine hdamages.trans (and_congr_left fun _ => ?_)
  omega

/-- A cut rectangle takes along the chroma of all its samples but those of a last column or row
that ends an even run from an odd start on. -/
theorem takesChroma_iff {r q : Rect} (hclip : g.clip r = some q) {x y : Nat} (h : q.Has x y) :
    q.TakesChroma x y ↔
      ¬ Rect.OddRunEndsAt q.x.toInt q.width.toInt x ∧
        ¬ Rect.OddRunEndsAt q.y.toInt q.height.toInt y := by
  obtain ⟨hx, hy⟩ := isCutSpan_of_clip hclip
  have hx0 := hx.start_nonneg
  have hy0 := hy.start_nonneg
  obtain ⟨hl, hr, ht, hb⟩ := h
  have hcolumn : (q.x.toInt.toNat / 2 ≤ x / 2 ∧
      x / 2 < q.x.toInt.toNat / 2 + (q.width.toInt.toNat + 1) / 2) ↔
      ¬ Rect.OddRunEndsAt q.x.toInt q.width.toInt x := by
    unfold Rect.OddRunEndsAt
    omega
  have hrow : (q.y.toInt.toNat / 2 ≤ y / 2 ∧
      y / 2 < q.y.toInt.toNat / 2 + (q.height.toInt.toNat + 1) / 2) ↔
      ¬ Rect.OddRunEndsAt q.y.toInt q.height.toInt y := by
    unfold Rect.OddRunEndsAt
    omega
  rw [← hcolumn, ← hrow]
  rfl

/-- The corner of the picture lies on a chroma sample, and the picture consists of whole
macroblocks. -/
structure IsAligned (g : CopyGeometry) : Prop where
  left_even : g.left.toInt % 2 = 0
  top_even : g.top.toInt % 2 = 0
  width_dvd : g.paddedWidth % 16 = 0
  height_dvd : g.paddedHeight % 16 = 0

/-- The chroma of a cut rectangle in one direction, for an aligned picture. Half a position is
written exactly if the rectangle takes it along, and is then read from half the position in the
tile. -/
theorem halves_of_isCutSpan {start extent origin : Int} {tile padded chroma i : Nat}
    (h : IsCutSpan start extent origin tile padded) (horigin : origin % 2 = 0)
    (hpadded : padded % 16 = 0) (hi : origin ≤ i ∧ (i : Int) < origin + padded)
    (hchroma : i / 2 < chroma) :
    let src := start.toNat / 2
    let dst := (start - origin).toNat / 2
    let count := min (min ((extent.toNat + 1) / 2) (chroma - src)) (padded / 2 - dst)
    let half := ((i : Int) - origin).toNat / 2
    (dst ≤ half ∧ half < dst + count ↔ src ≤ i / 2 ∧ i / 2 < src + (extent.toNat + 1) / 2) ∧
      (dst ≤ half → src + (half - dst) = i / 2) := by
  intro src dst count half
  have hstart := h.start_nonneg
  have hle := h.origin_le
  -- An even origin keeps halves in step.
  have hdst : (dst : Int) = start / 2 - origin / 2 := by
    simp only [dst]
    omega
  have hhalf : (half : Int) = (i / 2 : Nat) - origin / 2 := by
    simp only [half]
    omega
  have hsrc : (src : Int) = start / 2 := by
    simp only [src]
    omega
  have hroom : half < padded / 2 := by
    simp only [half]
    omega
  clear_value src dst half
  constructor
  · simp only [count]
    omega
  · omega

/-- The span of a cut rectangle covers the chroma of a sample exactly if the rectangle takes it
along; the span then prescribes the chroma of that sample in the tile. -/
theorem covers_chromaSpan_iff (ha : g.IsAligned) {r q : Rect} (hclip : g.clip r = some q)
    {x y : Nat} (hin : g.InPicture x y) (hx : x / 2 < g.tileWidth / 2) (hy : y < g.tileHeight) :
    ((∃ s, g.chromaSpan q = some s ∧ s.Covers (g.chromaColumn x) (g.chromaRow y)) ↔
      q.TakesChroma x y) ∧
    ∀ s, g.chromaSpan q = some s → s.Covers (g.chromaColumn x) (g.chromaRow y) → ∀ part,
      g.spanSource s (g.chromaColumn x) (g.chromaRow y) part =
        g.tileChromaOffset (x / 2) (y / 2) part := by
  obtain ⟨hcutX, hcutY⟩ := isCutSpan_of_clip hclip
  obtain ⟨hinX, hinY⟩ := hin
  have hyRow : y / 2 < PixelFormat.chromaRows g.tileHeight := by
    unfold PixelFormat.chromaRows
    omega
  obtain ⟨hcols, hsrcX⟩ := halves_of_isCutSpan hcutX ha.left_even ha.width_dvd hinX hx
  obtain ⟨hrows, hsrcY⟩ := halves_of_isCutSpan hcutY ha.top_even ha.height_dvd hinY hyRow
  constructor
  · rw [Rect.TakesChroma, ← hcols, ← hrows]
    constructor
    · rintro ⟨s, hs, hl, hr, ht, hb⟩
      have hof := isSpanOf_of_chromaSpan hs
      rw [hof.cols_eq, hof.srcX_eq, hof.dstX_eq] at hr
      rw [hof.rows_eq, hof.srcY_eq, hof.dstY_eq] at hb
      exact ⟨⟨hof.dstX_eq ▸ hl, hr⟩, hof.dstY_eq ▸ ht, hb⟩
    · rintro ⟨⟨hl, hr⟩, ht, hb⟩
      have hpos := And.intro (Nat.pos_of_lt_add_right (Nat.lt_of_le_of_lt hl hr))
        (Nat.pos_of_lt_add_right (Nat.lt_of_le_of_lt ht hb))
      exact ⟨_, if_pos hpos, hl, hr, ht, hb⟩
  · intro s hs hc part
    obtain ⟨hl, -, ht, -⟩ := hc
    have hof := isSpanOf_of_chromaSpan hs
    rw [hof.dstX_eq] at hl
    rw [hof.dstY_eq] at ht
    rw [spanSource, hof.srcX_eq, hof.srcY_eq, hof.dstX_eq, hof.dstY_eq, ← hsrcX hl, ← hsrcY ht]
    rfl

/-- A full tile has a chroma sample for each of its samples but those of a last odd column. -/
theorem isSome_tileChroma? {src : ByteArray} (hsrc : g.FillsTile src) {x y part : Nat}
    (hy : y < g.tileHeight) (hx : x / 2 < g.tileWidth / 2) (hpart : part < 2) :
    (g.tileChroma? src (x / 2) (y / 2) part).isSome := by
  have hrow : y / 2 < PixelFormat.chromaRows g.tileHeight := by
    unfold PixelFormat.chromaRows
    omega
  have hpair : y / 2 * g.tileWidth + (x / 2 * 2 + part) <
      g.tileWidth * PixelFormat.chromaRows g.tileHeight := rowOffset_lt hrow (by omega)
  have hbyte : g.tileChromaOffset (x / 2) (y / 2) part < (Bytes.toList src).length := by
    simp only [FillsTile, PixelFormat.tileLength] at hsrc
    rw [tileChromaOffset, Bytes.length_toList]
    omega
  rw [tileChroma?, List.getElem?_eq_getElem hbyte]
  rfl

/-- The chroma of a damaged sample is that of the tile if some cut rectangle takes it along, and
what it was before if none does. -/
theorem chroma?_copy_eq_ite (ha : g.IsAligned) {layout : PlaneLayout} {src dst out : ByteArray}
    {rects : List Rect} (hout : copy layout g src dst rects = some out) {x y part : Nat}
    (hcopies : g.Copies rects x y) (hx : x / 2 < g.tileWidth / 2) (hpart : part < 2) :
    chroma? layout g out (g.chromaColumn x) (g.chromaRow y) part =
      if g.TakesChroma rects x y then g.tileChroma? src (x / 2) (y / 2) part
      else chroma? layout g dst (g.chromaColumn x) (g.chromaRow y) part := by
  obtain ⟨⟨-, hy⟩, hin⟩ := inPicture_of_copies hcopies
  have hcolumn : g.chromaColumn x < g.paddedWidth / 2 := by
    have hwidth := ha.width_dvd
    have hright := hin.1
    unfold chromaColumn
    omega
  have hrow : g.chromaRow y < g.paddedHeight / 2 := by
    have hheight := ha.height_dvd
    have hbottom := hin.2
    unfold chromaRow
    omega
  split
  · next htakes =>
    obtain ⟨q, hq, hqtakes⟩ := htakes
    obtain ⟨r, -, hclip⟩ := List.mem_filterMap.mp hq
    obtain ⟨s, hs, hcovers⟩ := (covers_chromaSpan_iff ha hclip hin hx hy).1.mpr hqtakes
    refine chroma?_copy_of_covers hout hcolumn hrow hpart ?_
      ⟨s, List.mem_filterMap.mpr ⟨q, hq, hs⟩, hcovers⟩
    intro s' hs' hcovers'
    obtain ⟨q', hq', hspan'⟩ := List.mem_filterMap.mp hs'
    obtain ⟨r', -, hclip'⟩ := List.mem_filterMap.mp hq'
    exact (covers_chromaSpan_iff ha hclip' hin hx hy).2 s' hspan' hcovers' part
  · next hnot =>
    refine chroma?_copy_of_not_covers hout hcolumn hrow hpart fun s hs hcovers => ?_
    obtain ⟨q, hq, hspan⟩ := List.mem_filterMap.mp hs
    obtain ⟨r, -, hclip⟩ := List.mem_filterMap.mp hq
    exact hnot ⟨q, hq, (covers_chromaSpan_iff ha hclip hin hx hy).1.mp ⟨s, hspan, hcovers⟩⟩

/-- After a copy into an aligned picture, the chroma of a damaged sample is that of the tile if
some cut rectangle takes it along, and what it was before if none does. A rectangle that holds
the sample takes its chroma along unless the sample ends an even run of columns or rows with an
odd start. For 32-bit sizes, the damaged samples are those of the tile and the picture in some
rectangle. -/
theorem chroma?_copy_of_copies (ha : g.IsAligned) {src dst : ByteArray} (hsrc : g.FillsTile src)
    (hdst : g.HasRoom dst) (layout : PlaneLayout) (rects : List Rect) :
    (∃ out, copy layout g src dst rects = some out ∧
      ∀ x y, g.Copies rects x y → x / 2 < g.tileWidth / 2 → ∀ part < 2,
        (g.tileChroma? src (x / 2) (y / 2) part).isSome ∧
          chroma? layout g out (g.chromaColumn x) (g.chromaRow y) part =
            if g.TakesChroma rects x y then g.tileChroma? src (x / 2) (y / 2) part
            else chroma? layout g dst (g.chromaColumn x) (g.chromaRow y) part) ∧
    (∀ q ∈ rects.filterMap g.clip, ∀ x y : Nat, q.Has x y →
      (q.TakesChroma x y ↔ ¬ Rect.OddRunEndsAt q.x.toInt q.width.toInt x ∧
        ¬ Rect.OddRunEndsAt q.y.toInt q.height.toInt y)) ∧
    (g.HasSizes32 → ∀ x y : Nat, g.Copies rects x y ↔
      (x < g.tileWidth ∧ y < g.tileHeight) ∧ g.InPicture x y ∧ ∃ r ∈ rects, r.Has x y) := by
  refine ⟨?_, fun q hq x y hhas => ?_, fun h32 x y => copies_iff h32 rects x y⟩
  · obtain ⟨out, hout, -⟩ := exists_copy hsrc hdst layout rects
    exact ⟨out, hout, fun x y hcopies hx part hpart =>
      ⟨isSome_tileChroma? hsrc (inPicture_of_copies hcopies).1.2 hx hpart,
        chroma?_copy_eq_ite ha hout hcopies hx hpart⟩⟩
  · obtain ⟨r, -, hclip⟩ := List.mem_filterMap.mp hq
    exact takesChroma_iff hclip hhas

/-- The two columns from column one on leave the chroma of their last sample as it was, although
the tile has another. -/
theorem chroma?_copy_of_odd_start :
    let g : CopyGeometry := ⟨0, 0, 4, 4, 16, 16⟩
    let src := Bytes.generate 24 fun i => UInt8.ofNat (i + 1)
    ∃ out, copy .i420 g src (Bytes.zeros 384) [⟨1, 0, 2, 2⟩] = some out ∧
      g.Copies [⟨1, 0, 2, 2⟩] 2 0 ∧ g.tileChroma? src 1 0 0 = some 19 ∧
        chroma? .i420 g out 1 0 0 = some 0 := by
  intro g src
  have hsrc : g.FillsTile src := by
    rw [FillsTile, Bytes.size_generate]
    decide
  have hdst : g.HasRoom (Bytes.zeros 384) := by
    rw [HasRoom, Bytes.size_zeros]
    decide
  obtain ⟨⟨out, hout, hchroma⟩, -⟩ :=
    chroma?_copy_of_copies (g := g) ⟨by decide, by decide, by decide, by decide⟩ hsrc hdst
      .i420 [⟨1, 0, 2, 2⟩]
  have hcopies : g.Copies [⟨1, 0, 2, 2⟩] 2 0 := by decide
  have hstale := (hchroma 2 0 hcopies (by decide) 0 (by decide)).2
  refine ⟨out, hout, hcopies, ?_, ?_⟩
  · rw [tileChroma?, Bytes.toList_generate]
    rfl
  · have hzero : chroma? .i420 g (Bytes.zeros 384) 1 0 0 = some 0 := by
      rw [chroma?, Bytes.toList_zeros]
      exact List.getElem?_replicate_of_lt (by decide)
    have hcolumn : g.chromaColumn 2 = 1 := by decide
    have hrow : g.chromaRow 0 = 0 := by decide
    rw [if_neg (by decide), hcolumn, hrow, hzero] at hstale
    exact hstale

end CopyGeometry

end FrameEncoder
