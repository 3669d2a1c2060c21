import FrameEncoder.Proofs.Picture.LumaPlane

/-!
# The chroma of a copied picture

The two bytes of a chroma sample lie in planes of their own or side by side, by the layout of the
picture. In either layout a copy writes a sample exactly if some span covers it, and takes the sample
of the tile that the last of the covering spans prescribes.
-/

namespace FrameEncoder

/-- Whether a span writes a chroma sample of the picture. -/
def ChromaSpan.Covers (s : ChromaSpan) (cx cy : Nat) : Prop :=
  s.dstX ≤ cx ∧ cx < s.dstX + s.cols ∧ s.dstY ≤ cy ∧ cy < s.dstY + s.rows

instance (s : ChromaSpan) (cx cy : Nat) : Decidable (s.Covers cx cy) :=
  inferInstanceAs (Decidable (_ ∧ _))

namespace CopyGeometry

variable {g : CopyGeometry}

/-- Where a chroma sample of a picture lies: part 0 is its U byte and part 1 its V byte. -/
def chromaOffset (layout : PlaneLayout) (g : CopyGeometry) (cx cy part : Nat) : Nat :=
  match layout with
  | .i420 => g.lumaLength + part * g.chromaLength + (cy * (g.paddedWidth / 2) + cx)
  | .nv12 => g.lumaLength + (cy * g.paddedWidth + (cx * 2 + part))

/-- Where a byte of a chroma sample of a tile lies. -/
def tileChromaOffset (g : CopyGeometry) (cx cy part : Nat) : Nat :=
  g.tileWidth * g.tileHeight + (cy * g.tileWidth + (cx * 2 + part))

/-- A byte of the chroma sample of a picture. -/
def chroma? (layout : PlaneLayout) (g : CopyGeometry) (picture : ByteArray) (cx cy part : Nat) :
    Option UInt8 :=
  (Bytes.toList picture)[chromaOffset layout g cx cy part]?

/-- A byte of the chroma sample of a tile. -/
def tileChroma? (g : CopyGeometry) (src : ByteArray) (cx cy part : Nat) : Option UInt8 :=
  (Bytes.toList src)[g.tileChromaOffset cx cy part]?

/-- The byte of the tile that a span prescribes for a chroma sample it covers. -/
def spanSource (g : CopyGeometry) (s : ChromaSpan) (cx cy part : Nat) : Nat :=
  g.tileChromaOffset (s.srcX + (cx - s.dstX)) (s.srcY + (cy - s.dstY)) part

/-- A row of a separate plane writes a chroma byte only if its part is the plane's and its span
covers the sample. -/
theorem sourceOf?_planarRow {src : ByteArray} {s : ChromaSpan} {row p cx cy part i : Nat}
    (hs : g.IsSpan s) (hrow : row < s.rows) (hp : p < 2) (hpart : part < 2)
    (hcx : cx < g.paddedWidth / 2) (hcy : cy < g.paddedHeight / 2)
    (h : (g.planarRow src s row p (g.lumaLength + p * g.chromaLength)).sourceOf?
      (chromaOffset .i420 g cx cy part) = some i) :
    s.Covers cx cy ∧ i = g.spanSource s cx cy part := by
  have hcols := hs.target_cols
  have hrows := hs.target_rows
  have hrun : (s.dstY + row) * (g.paddedWidth / 2) + s.dstX + s.cols ≤ g.chromaLength := by
    have hlast : (s.dstY + row + 1) * (g.paddedWidth / 2) ≤
        g.paddedHeight / 2 * (g.paddedWidth / 2) := Nat.mul_le_mul_right _ (by omega)
    rw [Nat.succ_mul, Nat.mul_comm (g.paddedHeight / 2)] at hlast
    unfold chromaLength
    omega
  have hsample : cy * (g.paddedWidth / 2) + cx < g.chromaLength := rowOffset_lt hcy hcx
  obtain ⟨hin, rfl⟩ := Transfer.sourceOf?_eq_some_iff.mp h
  simp only [planarRow, chromaOffset, sourceChroma, Plane.after] at hin ⊢
  have hplane : p = part := by
    obtain rfl | rfl : p = 0 ∨ p = 1 := by omega
    all_goals obtain rfl | rfl : part = 0 ∨ part = 1 := by omega
    all_goals omega
  subst hplane
  obtain ⟨rfl, hx, hx'⟩ := (rowOffset_mem_iff (a := s.dstY + row) (b := cy) hcols hcx).mp
    (by omega)
  refine ⟨⟨hx, hx', by omega, by omega⟩, ?_⟩
  simp only [spanSource, tileChromaOffset, Nat.add_sub_cancel_left]
  omega

/-- An interleaved row writes a chroma byte only if its span covers the sample. -/
theorem sourceOf?_interleavedRow {src dst : ByteArray} {s : ChromaSpan} {row cx cy part i : Nat}
    (hs : g.IsSpan s) (hrow : row < s.rows) (hpart : part < 2) (hcx : cx < g.paddedWidth / 2)
    (h : (g.interleavedRow src dst s row).sourceOf? (chromaOffset .nv12 g cx cy part) = some i) :
    s.Covers cx cy ∧ i = g.spanSource s cx cy part := by
  have hcols := hs.target_cols
  obtain ⟨hin, rfl⟩ := Transfer.sourceOf?_eq_some_iff.mp h
  simp only [interleavedRow, chromaOffset, sourceChroma, Plane.after] at hin ⊢
  have hrun : s.dstX * 2 + s.cols * 2 ≤ g.paddedWidth := by omega
  have hbyte : cx * 2 + part < g.paddedWidth := by omega
  obtain ⟨rfl, hx, hx'⟩ := (rowOffset_mem_iff (a := s.dstY + row) (b := cy) hrun hbyte).mp
    (by omega)
  refine ⟨⟨by omega, by omega, by omega, by omega⟩, ?_⟩
  simp only [spanSource, tileChromaOffset, Nat.add_sub_cancel_left]
  omega

/-- A transfer of a span writes a chroma byte only if the span covers the sample, and then takes
the byte the span prescribes. -/
theorem sourceOf?_chromaTransfers {layout : PlaneLayout} {src dst : ByteArray} {s : ChromaSpan}
    {cx cy part i : Nat} (hs : g.IsSpan s) (hpart : part < 2) (hcx : cx < g.paddedWidth / 2)
    (hcy : cy < g.paddedHeight / 2) {t : Transfer} (ht : t ∈ chromaTransfers layout g src dst s)
    (h : t.sourceOf? (chromaOffset layout g cx cy part) = some i) :
    s.Covers cx cy ∧ i = g.spanSource s cx cy part := by
  cases layout with
  | i420 =>
    obtain ⟨row, hrow, hmem⟩ := List.mem_flatMap.mp ht
    simp only [List.mem_cons, List.not_mem_nil, or_false] at hmem
    rcases hmem with rfl | rfl
    · exact sourceOf?_planarRow hs (List.mem_range.mp hrow) (p := 0) (by decide) hpart hcx hcy
        (by simpa only [Nat.zero_mul, Nat.add_zero] using h)
    · exact sourceOf?_planarRow hs (List.mem_range.mp hrow) (p := 1) (by decide) hpart hcx hcy
        (by simpa only [Nat.one_mul] using h)
  | nv12 =>
    obtain ⟨row, hrow, rfl⟩ := List.mem_map.mp ht
    exact sourceOf?_interleavedRow hs (List.mem_range.mp hrow) hpart hcx h

/-- A span that covers a sample writes both its bytes. -/
theorem exists_sourceOf?_chromaTransfers {layout : PlaneLayout} {src dst : ByteArray}
    {s : ChromaSpan} {cx cy part : Nat} (hpart : part < 2) (hc : s.Covers cx cy) :
    ∃ t ∈ chromaTransfers layout g src dst s,
      (t.sourceOf? (chromaOffset layout g cx cy part)).isSome := by
  obtain ⟨hx, hx', hy, hy'⟩ := hc
  have hrow : cy - s.dstY < s.rows := by omega
  have hback : s.dstY + (cy - s.dstY) = cy := by omega
  cases layout with
  | i420 =>
    refine ⟨g.planarRow src s (cy - s.dstY) part (g.lumaLength + part * g.chromaLength),
      List.mem_flatMap.mpr ⟨cy - s.dstY, List.mem_range.mpr hrow, ?_⟩, ?_⟩
    · obtain rfl | rfl : part = 0 ∨ part = 1 := by omega
      · simp
      · simp
    · simp only [Transfer.sourceOf?, planarRow, chromaOffset, hback]
      rw [if_pos (by omega)]
      rfl
  | nv12 =>
    refine ⟨g.interleavedRow src dst s (cy - s.dstY),
      List.mem_map.mpr ⟨cy - s.dstY, List.mem_range.mpr hrow, rfl⟩, ?_⟩
    simp only [Transfer.sourceOf?, interleavedRow, chromaOffset, Plane.after, hback]
    rw [if_pos (by omega)]
    rfl

/-- The rows of a span write a chroma byte exactly if the span covers the sample, and then take the
byte the span prescribes. -/
theorem lastSourceOf?_chromaTransfers {layout : PlaneLayout} {src dst : ByteArray} {s : ChromaSpan}
    {cx cy part : Nat} (hs : g.IsSpan s) (hpart : part < 2) (hcx : cx < g.paddedWidth / 2)
    (hcy : cy < g.paddedHeight / 2) :
    Transfer.lastSourceOf? (chromaTransfers layout g src dst s) (chromaOffset layout g cx cy part) =
      if s.Covers cx cy then some (g.spanSource s cx cy part) else none := by
  split
  · next hc =>
    apply Transfer.lastSourceOf?_eq_some
    · intro t ht i hi
      exact (sourceOf?_chromaTransfers hs hpart hcx hcy ht hi).2
    · exact exists_sourceOf?_chromaTransfers hpart hc
  · next hnot =>
    refine Transfer.lastSourceOf?_eq_none fun t ht => ?_
    refine Option.eq_none_iff_forall_ne_some.mpr fun i hi => hnot ?_
    exact (sourceOf?_chromaTransfers hs hpart hcx hcy ht hi).1

/-- The last of the spans of a list of rectangles that covers a chroma sample. -/
def lastSpan? (g : CopyGeometry) (rects : List Rect) (cx cy : Nat) : Option ChromaSpan :=
  (g.spans rects).reverse.find? fun s => s.Covers cx cy

/-- A copy writes a chroma byte exactly if some span covers the sample, and then takes the byte that
the last of them prescribes. -/
theorem lastSourceOf?_chromaOffset {layout : PlaneLayout} {src dst : ByteArray} {rects : List Rect}
    {cx cy part : Nat} (hpart : part < 2) (hcx : cx < g.paddedWidth / 2)
    (hcy : cy < g.paddedHeight / 2) :
    Transfer.lastSourceOf? (transfers layout g src dst rects) (chromaOffset layout g cx cy part) =
      (g.lastSpan? rects cx cy).map fun s => g.spanSource s cx cy part := by
  have hbehind : g.lumaLength ≤ chromaOffset layout g cx cy part := by
    cases layout <;> simp only [chromaOffset] <;> omega
  have hluma : Transfer.lastSourceOf? ((rects.filterMap g.clip).flatMap (g.lumaTransfers src))
      (chromaOffset layout g cx cy part) = none := by
    refine Transfer.lastSourceOf?_eq_none fun t ht => ?_
    refine Option.eq_none_iff_forall_ne_some.mpr fun i hi => ?_
    obtain ⟨dx, hdx, dy, hdy, hj⟩ := exists_lumaOffset_of_sourceOf? ht hi
    have hlt := lumaOffset_lt hdx hdy
    omega
  rw [transfers, Transfer.lastSourceOf?_append, hluma, Option.or_none]
  apply Transfer.lastSourceOf?_flatMap
  intro s hs
  rw [lastSourceOf?_chromaTransfers (isSpan_of_mem_spans hs) hpart hcx hcy]
  simp only [decide_eq_true_eq]

/-- There is a last covering span exactly if some span covers the sample. -/
theorem lastSpan?_eq_none_iff {rects : List Rect} {cx cy : Nat} :
    g.lastSpan? rects cx cy = none ↔ ∀ s ∈ g.spans rects, ¬ s.Covers cx cy := by
  simp only [lastSpan?, List.find?_eq_none, List.mem_reverse, decide_eq_true_eq]

/-- The last covering span is one of the spans and covers the sample. -/
theorem of_lastSpan?_eq_some {rects : List Rect} {cx cy : Nat} {s : ChromaSpan}
    (h : g.lastSpan? rects cx cy = some s) : s ∈ g.spans rects ∧ s.Covers cx cy := by
  refine ⟨List.mem_reverse.mp (List.mem_of_find?_eq_some h), ?_⟩
  simpa only [decide_eq_true_eq] using List.find?_some h

/-- A chroma sample after a copy. -/
theorem chroma?_copy {layout : PlaneLayout} {src dst out : ByteArray} {rects : List Rect}
    (h : copy layout g src dst rects = some out) {cx cy part : Nat}
    (hcx : cx < g.paddedWidth / 2) (hcy : cy < g.paddedHeight / 2) (hpart : part < 2) :
    chroma? layout g out cx cy part =
      match g.lastSpan? rects cx cy with
      | some s => g.tileChroma? src (s.srcX + (cx - s.dstX)) (s.srcY + (cy - s.dstY)) part
      | none => chroma? layout g dst cx cy part := by
  rw [chroma?, getElem?_of_copy h, lastSourceOf?_chromaOffset hpart hcx hcy]
  cases g.lastSpan? rects cx cy <;> rfl

/-- A chroma sample that no span covers stays as it was. -/
theorem chroma?_copy_of_not_covers {layout : PlaneLayout} {src dst out : ByteArray}
    {rects : List Rect} (h : copy layout g src dst rects = some out) {cx cy part : Nat}
    (hcx : cx < g.paddedWidth / 2) (hcy : cy < g.paddedHeight / 2) (hpart : part < 2)
    (hnone : ∀ s ∈ g.spans rects, ¬ s.Covers cx cy) :
    chroma? layout g out cx cy part = chroma? layout g dst cx cy part := by
  rw [chroma?_copy h hcx hcy hpart, lastSpan?_eq_none_iff.mpr hnone]

/-- A chroma sample some span covers gets the byte of the tile that all covering spans
prescribe. -/
theorem chroma?_copy_of_covers {layout : PlaneLayout} {src dst out : ByteArray}
    {rects : List Rect} (h : copy layout g src dst rects = some out) {cx cy part i : Nat}
    (hcx : cx < g.paddedWidth / 2) (hcy : cy < g.paddedHeight / 2) (hpart : part < 2)
    (hall : ∀ s ∈ g.spans rects, s.Covers cx cy → g.spanSource s cx cy part = i)
    (hex : ∃ s ∈ g.spans rects, s.Covers cx cy) :
    chroma? layout g out cx cy part = (Bytes.toList src)[i]? := by
  rw [chroma?_copy h hcx hcy hpart]
  cases hlast : g.lastSpan? rects cx cy with
  | none =>
    obtain ⟨s, hs, hc⟩ := hex
    exact absurd hc (lastSpan?_eq_none_iff.mp hlast s hs)
  | some s =>
    obtain ⟨hs, hc⟩ := of_lastSpan?_eq_some hlast
    rw [← hall s hs hc]
    rfl

/-- A row of a span writes chroma samples of the picture only. -/
theorem exists_chromaOffset_of_sourceOf? {layout : PlaneLayout} {src dst : ByteArray}
    {s : ChromaSpan} (hs : g.IsSpan s) {t : Transfer} (ht : t ∈ chromaTransfers layout g src dst s)
    {i j : Nat} (h : t.sourceOf? j = some i) :
    ∃ cx < g.paddedWidth / 2, ∃ cy < g.paddedHeight / 2, ∃ part < 2,
      j = chromaOffset layout g cx cy part := by
  have hcols := hs.target_cols
  have hrows := hs.target_rows
  obtain ⟨⟨hle, hlt⟩, -⟩ := Transfer.sourceOf?_eq_some_iff.mp h
  cases layout with
  | i420 =>
    obtain ⟨row, hrow, hpart⟩ := List.mem_flatMap.mp ht
    have hrow := List.mem_range.mp hrow
    simp only [List.mem_cons, List.not_mem_nil, or_false] at hpart
    rcases hpart with rfl | rfl
    · simp only [planarRow] at hle hlt
      refine ⟨j - (g.lumaLength + (s.dstY + row) * (g.paddedWidth / 2)), by omega, s.dstY + row,
        by omega, 0, by decide, ?_⟩
      simp only [chromaOffset]
      omega
    · simp only [planarRow] at hle hlt
      refine ⟨j - (g.lumaLength + g.chromaLength + (s.dstY + row) * (g.paddedWidth / 2)), by omega,
        s.dstY + row, by omega, 1, by decide, ?_⟩
      simp only [chromaOffset]
      omega
  | nv12 =>
    obtain ⟨row, hrow, rfl⟩ := List.mem_map.mp ht
    have hrow := List.mem_range.mp hrow
    simp only [interleavedRow, Plane.after] at hle hlt
    refine ⟨(j - (g.lumaLength + (s.dstY + row) * g.paddedWidth)) / 2, by omega, s.dstY + row,
      by omega, (j - (g.lumaLength + (s.dstY + row) * g.paddedWidth)) % 2, by omega, ?_⟩
    simp only [chromaOffset]
    omega

end CopyGeometry

end FrameEncoder
