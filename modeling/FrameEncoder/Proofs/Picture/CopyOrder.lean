import FrameEncoder.Proofs.Picture.CopiedSamples

/-!
# The order of damage rectangles

If the picture starts on a chroma sample, every span that covers a sample of the picture prescribes
one and the same sample of the tile, however its rectangle was cut. A copy then depends on which
rectangles there are, not on their order or on how often they are listed. With an odd origin halving
rounds differently from span to span, and the last one counts.

Wherever the picture starts, a copy onto its own result changes nothing.
-/

namespace FrameEncoder.CopyGeometry

variable {g : CopyGeometry}

/-- The corner of the picture lies on a chroma sample. -/
structure HasEvenOrigin (g : CopyGeometry) : Prop where
  left_even : g.left.toInt % 2 = 0
  top_even : g.top.toInt % 2 = 0

/-- Half a run of a cut rectangle, for an even origin: half a position of the picture that is not
before the run is read from half the position on the screen. -/
theorem half_of_isCutSpan {start extent origin : Int} {tile padded half : Nat}
    (h : IsCutSpan start extent origin tile padded) (horigin : origin % 2 = 0)
    (hle : (start - origin).toNat / 2 ≤ half) :
    start.toNat / 2 + (half - (start - origin).toNat / 2) = ((half : Int) + origin / 2).toNat := by
  have hstart := h.start_nonneg
  have horiginLe := h.origin_le
  -- Only an even origin can be halved apart from the start.
  have hhalves : ((start - origin).toNat / 2 : Nat) = start / 2 - origin / 2 := by omega
  omega

/-- For an even origin, a covering span prescribes the chroma sample half of the origin away,
whichever span it is. -/
theorem spanSource_of_hasEvenOrigin (heven : g.HasEvenOrigin) {rects : List Rect} {s : ChromaSpan}
    (hs : s ∈ g.spans rects) {cx cy : Nat} (hc : s.Covers cx cy) (part : Nat) :
    g.spanSource s cx cy part = g.tileChromaOffset ((cx : Int) + g.left.toInt / 2).toNat
      ((cy : Int) + g.top.toInt / 2).toNat part := by
  obtain ⟨q, hq, hspan⟩ := List.mem_filterMap.mp hs
  obtain ⟨r, -, hclip⟩ := List.mem_filterMap.mp hq
  obtain ⟨hx, hy⟩ := isCutSpan_of_clip hclip
  obtain ⟨hleft, -, htop, -⟩ := hc
  have hof := isSpanOf_of_chromaSpan hspan
  rw [hof.dstX_eq] at hleft
  rw [hof.dstY_eq] at htop
  have hcolumn := half_of_isCutSpan hx heven.left_even hleft
  have hrow := half_of_isCutSpan hy heven.top_even htop
  rw [spanSource, hof.srcX_eq, hof.srcY_eq, hof.dstX_eq, hof.dstY_eq, columnOf, rowOf, hcolumn,
    hrow]

section

variable {rects others : List Rect} (hsame : ∀ r, r ∈ rects ↔ r ∈ others)

include hsame

/-- Lists of the same rectangles have the same cut rectangles. -/
theorem mem_cut_congr (q : Rect) : q ∈ rects.filterMap g.clip ↔ q ∈ others.filterMap g.clip := by
  simp only [List.mem_filterMap, hsame]

/-- Lists of the same rectangles have the same spans. -/
theorem mem_spans_congr (s : ChromaSpan) : s ∈ g.spans rects ↔ s ∈ g.spans others := by
  simp only [spans, List.mem_filterMap, hsame]

/-- Lists of the same rectangles move the same rows. -/
theorem mem_transfers_congr (layout : PlaneLayout) (src dst : ByteArray) (t : Transfer) :
    t ∈ transfers layout g src dst rects ↔ t ∈ transfers layout g src dst others := by
  simp only [transfers, List.mem_append, List.mem_flatMap, mem_cut_congr hsame,
    mem_spans_congr hsame]

/-- Lists of the same rectangles damage the same points. -/
theorem damages_congr (x y : Int) : g.Damages rects x y ↔ g.Damages others x y := by
  simp only [damages_iff, hsame]

/-- For an even origin, the last spans that cover a sample in two lists of the same rectangles
prescribe the same sample of the tile. -/
theorem map_lastSpan?_congr (heven : g.HasEvenOrigin) (cx cy part : Nat) :
    ((g.lastSpan? rects cx cy).map fun s => g.spanSource s cx cy part) =
      (g.lastSpan? others cx cy).map fun s => g.spanSource s cx cy part := by
  cases hlast : g.lastSpan? rects cx cy with
  | none =>
    have hnone : g.lastSpan? others cx cy = none := by
      rw [lastSpan?_eq_none_iff] at hlast ⊢
      exact fun s hs => hlast s ((mem_spans_congr hsame s).mpr hs)
    rw [hnone]
  | some s =>
    obtain ⟨hs, hc⟩ := of_lastSpan?_eq_some hlast
    cases hother : g.lastSpan? others cx cy with
    | none => exact absurd hc (lastSpan?_eq_none_iff.mp hother s ((mem_spans_congr hsame s).mp hs))
    | some s' =>
      obtain ⟨hs', hc'⟩ := of_lastSpan?_eq_some hother
      simp only [Option.map_some, spanSource_of_hasEvenOrigin heven hs hc,
        spanSource_of_hasEvenOrigin heven hs' hc']

/-- For an even origin, copies of the same rectangles take each byte from the same place. -/
theorem lastSourceOf?_congr (heven : g.HasEvenOrigin) (layout : PlaneLayout) (src dst : ByteArray)
    (j : Nat) :
    Transfer.lastSourceOf? (transfers layout g src dst rects) j =
      Transfer.lastSourceOf? (transfers layout g src dst others) j := by
  by_cases hsample : IsSample layout g j
  · cases hsample with
    | luma hdx hdy =>
      rw [lastSourceOf?_lumaOffset hdx hdy, lastSourceOf?_lumaOffset hdx hdy]
      simp only [damages_congr hsame]
    | chroma hcx hcy hpart =>
      rw [lastSourceOf?_chromaOffset hpart hcx hcy, lastSourceOf?_chromaOffset hpart hcx hcy]
      exact map_lastSpan?_congr hsame heven _ _ _
  · rw [lastSourceOf?_of_not_isSample hsample, lastSourceOf?_of_not_isSample hsample]

/-- For an even origin, copies of the same rectangles have the same result, if any. -/
theorem copy_congr (heven : g.HasEvenOrigin) (layout : PlaneLayout) (src dst : ByteArray) :
    copy layout g src dst rects = copy layout g src dst others := by
  have hrun : Transfer.runAll src (transfers layout g src dst rects) dst =
      Transfer.runAll src (transfers layout g src dst others) dst := by
    apply Transfer.runAll_eq_of_lastSourceOf?_eq
    · simp only [mem_transfers_congr hsame]
    · exact lastSourceOf?_congr hsame heven layout src dst
  rw [copy, copy, hrun]

end

/-- Which rows a copy moves depends on the size of the picture only, not on its bytes. -/
theorem transfers_of_size_eq {dst out : ByteArray} (hsize : out.size = dst.size)
    (layout : PlaneLayout) (src : ByteArray) (rects : List Rect) :
    transfers layout g src out rects = transfers layout g src dst rects := by
  have hrows : chromaTransfers layout g src out = chromaTransfers layout g src dst := by
    funext s
    cases layout with
    | i420 => rfl
    | nv12 =>
      apply List.map_congr_left
      intro row _
      simp only [interleavedRow, Plane.after, hsize]
  rw [transfers, transfers, hrows]

/-- A copy onto its own result changes nothing. -/
theorem copy_of_copy {layout : PlaneLayout} {src dst out : ByteArray} {rects : List Rect}
    (h : copy layout g src dst rects = some out) : copy layout g src out rects = some out := by
  have hsize := size_of_copy h
  have hsplit := (isSome_copy_iff.mp (Option.isSome_of_mem h)).1
  rw [copy, transfers_of_size_eq hsize, hsize, if_pos hsplit]
  exact Transfer.runAll_of_runAll (runAll_of_copy h)

/-- For an even origin, copies of the same rectangles, in any order and any number of times, have
the same result, and neither has one if the other has none. For any origin, a second copy onto the
result of the first changes nothing. A full tile and a picture with room have a result. -/
theorem copy_order_free (layout : PlaneLayout) (g : CopyGeometry) (src dst : ByteArray) :
    (g.HasEvenOrigin → ∀ rects others : List Rect, (∀ r, r ∈ rects ↔ r ∈ others) →
      copy layout g src dst rects = copy layout g src dst others) ∧
    (∀ rects, ((copy layout g src dst rects).bind fun out => copy layout g src out rects) =
      copy layout g src dst rects) ∧
    (g.FillsTile src → g.HasRoom dst → ∀ rects, (copy layout g src dst rects).isSome) := by
  refine ⟨fun heven rects others hsame => copy_congr hsame heven layout src dst, fun rects => ?_,
    fun hsrc hdst rects => isSome_copy hsrc hdst layout rects⟩
  cases h : copy layout g src dst rects with
  | none => rfl
  | some out => exact copy_of_copy h

/-- Two overlapping rectangles at a negative even origin, in both orders and one of them twice. -/
theorem copy_order_free_overlapping :
    let g : CopyGeometry := ⟨-2, 0, 6, 4, 8, 4⟩
    let src := Bytes.generate 36 fun i => UInt8.ofNat (i + 1)
    let first : Rect := ⟨0, 0, 3, 2⟩
    let second : Rect := ⟨1, 0, 4, 3⟩
    g.HasEvenOrigin ∧ ∃ out, copy .nv12 g src (Bytes.zeros 48) [first, second] = some out ∧
      copy .nv12 g src (Bytes.zeros 48) [second, first, second] = some out ∧
        copy .nv12 g src out [first, second] = some out := by
  intro g src first second
  have heven : g.HasEvenOrigin := ⟨by decide, by decide⟩
  have hsrc : g.FillsTile src := by
    rw [FillsTile, Bytes.size_generate]
    decide
  have hdst : g.HasRoom (Bytes.zeros 48) := by
    rw [HasRoom, Bytes.size_zeros]
    decide
  obtain ⟨hsame, hagain, hsome⟩ := copy_order_free .nv12 g src (Bytes.zeros 48)
  obtain ⟨out, hout⟩ := Option.isSome_iff_exists.mp (hsome hsrc hdst [first, second])
  have hagain := hagain [first, second]
  have hother := hsame heven [first, second] [second, first, second] fun r => by
    simp only [List.mem_cons, List.not_mem_nil, or_false]
    exact ⟨.inr, fun h => h.elim .inr id⟩
  rw [hout, Option.bind_some] at hagain
  exact ⟨heven, out, hout, hother ▸ hout, hagain⟩

/-- At an odd origin the order of two overlapping rectangles shows in the chroma. -/
example :
    let g : CopyGeometry := ⟨1, 0, 6, 4, 4, 4⟩
    let src := Bytes.generate 36 fun i => UInt8.ofNat (i + 1)
    copy .i420 g src (Bytes.zeros 32) [⟨1, 0, 2, 2⟩, ⟨2, 0, 3, 2⟩] ≠
      copy .i420 g src (Bytes.zeros 32) [⟨2, 0, 3, 2⟩, ⟨1, 0, 2, 2⟩] := by
  decide +kernel

end FrameEncoder.CopyGeometry
