import FrameEncoder.Proofs.Picture.ChromaPlanes

/-!
# The samples of a copied picture

A copy decides each byte of the picture by itself. A luma sample becomes that of the tile at the same
point of the screen if the point lies in the tile and in some rectangle. A chroma sample becomes the
sample of the tile that the last rectangle in the list prescribes among those whose span covers it.
All other samples, and the bytes behind the planes, stay as they were.
-/

namespace FrameEncoder.CopyGeometry

variable {g : CopyGeometry}

/-- The bytes of a picture that belong to a sample. -/
inductive IsSample (layout : PlaneLayout) (g : CopyGeometry) : Nat → Prop
  | luma {dx dy : Nat} (hdx : dx < g.paddedWidth) (hdy : dy < g.paddedHeight) :
    IsSample layout g (g.lumaOffset dx dy)
  | chroma {cx cy part : Nat} (hcx : cx < g.paddedWidth / 2) (hcy : cy < g.paddedHeight / 2)
    (hpart : part < 2) : IsSample layout g (chromaOffset layout g cx cy part)

/-- A copy writes samples only. -/
theorem lastSourceOf?_of_not_isSample {layout : PlaneLayout} {src dst : ByteArray}
    {rects : List Rect} {j : Nat} (h : ¬ IsSample layout g j) :
    Transfer.lastSourceOf? (transfers layout g src dst rects) j = none := by
  refine Transfer.lastSourceOf?_eq_none fun t ht => ?_
  refine Option.eq_none_iff_forall_ne_some.mpr fun i hi => h ?_
  rcases List.mem_append.mp ht with hluma | hchroma
  · obtain ⟨dx, hdx, dy, hdy, rfl⟩ := exists_lumaOffset_of_sourceOf? hluma hi
    exact .luma hdx hdy
  · obtain ⟨s, hs, hrow⟩ := List.mem_flatMap.mp hchroma
    obtain ⟨cx, hcx, cy, hcy, part, hpart, rfl⟩ :=
      exists_chromaOffset_of_sourceOf? (isSpan_of_mem_spans hs) hrow hi
    exact .chroma hcx hcy hpart

/-- Samples lie in the first one and a half bytes a pixel. -/
theorem IsSample.lt {layout : PlaneLayout} {j : Nat} (h : IsSample layout g j) :
    j < g.lumaLength * 3 / 2 := by
  cases h with
  | luma hdx hdy =>
    have hluma := lumaOffset_lt hdx hdy
    omega
  | @chroma cx cy part hcx hcy hpart =>
    cases layout with
    | i420 =>
      have hsample : cy * (g.paddedWidth / 2) + cx < g.chromaLength := rowOffset_lt hcy hcx
      have hplanes := g.two_mul_chromaLength_le
      obtain rfl | rfl : part = 0 ∨ part = 1 := by omega
      all_goals
        simp only [chromaOffset]
        omega
    | nv12 =>
      have hsample : cy * g.paddedWidth + (cx * 2 + part) < g.paddedWidth * (g.paddedHeight / 2) :=
        rowOffset_lt hcy (by omega)
      have hplane := g.chromaRowsLength_le
      simp only [chromaOffset]
      omega

/-- A luma sample of the picture lies in the picture. -/
theorem targetRect_has_screen (hwidth : g.paddedWidth < 2147483648)
    (hheight : g.paddedHeight < 2147483648) {dx dy : Nat} (hdx : dx < g.paddedWidth)
    (hdy : dy < g.paddedHeight) : g.targetRect.Has (g.screenColumn dx) (g.screenRow dy) := by
  rw [targetRect_has_iff hwidth hheight]
  unfold screenColumn screenRow
  omega

/-- A byte that belongs to no sample stays as it was. -/
theorem getElem?_copy_of_not_isSample {layout : PlaneLayout} {src dst out : ByteArray}
    {rects : List Rect} (h : copy layout g src dst rects = some out) {j : Nat}
    (hj : ¬ IsSample layout g j) : (Bytes.toList out)[j]? = (Bytes.toList dst)[j]? := by
  rw [getElem?_of_copy h, lastSourceOf?_of_not_isSample hj]
  rfl

/-- What a copy of a full tile makes of each byte of a picture with room: of luma by the tile and the
rectangles, of chroma by the last span that covers it, and nothing behind the planes. The tile is
taken with its sizes as 32-bit values; below 2147483648 these are its sizes. -/
theorem copy_samples {src dst : ByteArray} (hwidth : g.paddedWidth < 2147483648)
    (hheight : g.paddedHeight < 2147483648) (hsrc : g.FillsTile src) (hdst : g.HasRoom dst)
    (layout : PlaneLayout) (rects : List Rect) :
    (∃ out, copy layout g src dst rects = some out ∧ out.size = dst.size ∧
      (∀ dx < g.paddedWidth, ∀ dy < g.paddedHeight, g.luma? out dx dy =
        if g.sourceRect.Has (g.screenColumn dx) (g.screenRow dy) ∧
            ∃ r ∈ rects, r.Has (g.screenColumn dx) (g.screenRow dy) then
          g.tileLuma? src (g.screenColumn dx) (g.screenRow dy)
        else g.luma? dst dx dy) ∧
      (∀ cx < g.paddedWidth / 2, ∀ cy < g.paddedHeight / 2, ∀ part < 2,
        chroma? layout g out cx cy part =
          match g.lastSpan? rects cx cy with
          | some s => g.tileChroma? src (s.srcX + (cx - s.dstX)) (s.srcY + (cy - s.dstY)) part
          | none => chroma? layout g dst cx cy part) ∧
      ∀ j, g.lumaLength * 3 / 2 ≤ j → (Bytes.toList out)[j]? = (Bytes.toList dst)[j]?) ∧
    (g.tileWidth < 2147483648 → g.tileHeight < 2147483648 → ∀ x y, g.sourceRect.Has x y ↔
      (0 ≤ x ∧ x < g.tileWidth) ∧ 0 ≤ y ∧ y < g.tileHeight) := by
  obtain ⟨out, hout, -⟩ := exists_copy hsrc hdst layout rects
  refine ⟨⟨out, hout, size_of_copy hout, ?_, ?_, ?_⟩, sourceRect_has_iff⟩
  · intro dx hdx dy hdy
    have htarget := targetRect_has_screen hwidth hheight hdx hdy
    rw [luma?_copy hout hdx hdy]
    simp only [damages_iff, htarget, and_true]
  · intro cx hcx cy hcy part hpart
    exact chroma?_copy hout hcx hcy hpart
  · intro j hj
    refine getElem?_copy_of_not_isSample hout fun hsample => ?_
    exact Nat.not_le.mpr hsample.lt hj

/-- Two rectangles whose spans prescribe different samples for the first chroma sample, since the
picture starts at an odd column: the second counts, and the last luma row stays as it was. -/
theorem copy_samples_odd_origin :
    let g : CopyGeometry := ⟨1, 0, 6, 4, 4, 4⟩
    let src := Bytes.generate 36 fun i => UInt8.ofNat (i + 1)
    let rects : List Rect := [⟨1, 0, 2, 2⟩, ⟨2, 0, 3, 2⟩]
    ∃ out, copy .nv12 g src (Bytes.zeros 32) rects = some out ∧
      g.luma? out 0 1 = some 8 ∧ g.luma? out 0 3 = some 0 ∧
        chroma? .nv12 g out 0 0 0 = some 27 ∧ (Bytes.toList out)[24]? = some 0 := by
  intro g src rects
  have hsrc : g.FillsTile src := by
    rw [FillsTile, Bytes.size_generate]
    decide
  have hdst : g.HasRoom (Bytes.zeros 32) := by
    rw [HasRoom, Bytes.size_zeros]
    decide
  have hbytes : Bytes.toList src = (List.range 36).map fun i => UInt8.ofNat (i + 1) :=
    Bytes.toList_generate ..
  have hzeros : Bytes.toList (Bytes.zeros 32) = List.replicate 32 0 := Bytes.toList_zeros 32
  obtain ⟨⟨out, hout, -, hluma, hchroma, hrest⟩, -⟩ :=
    copy_samples (g := g) (by decide) (by decide) hsrc hdst .nv12 rects
  refine ⟨out, hout, ?_, ?_, ?_, ?_⟩
  · rw [hluma 0 (by decide) 1 (by decide), if_pos (by decide), tileLuma?, hbytes]
    rfl
  · rw [hluma 0 (by decide) 3 (by decide), if_neg (by decide), luma?, hzeros]
    rfl
  · have hlast : g.lastSpan? rects 0 0 = some ⟨1, 0, 0, 0, 2, 1⟩ := by decide
    rw [hchroma 0 (by decide) 0 (by decide) 0 (by decide), hlast]
    simp only [tileChroma?, hbytes]
    rfl
  · rw [hrest 24 (by decide), hzeros]
    rfl

end FrameEncoder.CopyGeometry
