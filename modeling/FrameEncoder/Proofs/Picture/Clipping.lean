import FrameEncoder.Picture.DamageCopy
import FrameEncoder.Proofs.Picture.Transfers
import FrameEncoder.Proofs.Rect.Intersection

/-!
# Damage copies stay in their buffers

A cut rectangle lies in the tile and in the picture, and so does the chroma of its span in the
half-size planes. Hence every row a damage copy moves lies in a tile that fills its format and in
a picture with room for its planes, whatever the origin, the sizes and the rectangles are: the
copy has a result.
-/

namespace FrameEncoder

/-- A column of a row lies before the end of the rows. -/
theorem rowOffset_lt {row rows column pitch : Nat} (hr : row < rows) (hc : column < pitch) :
    row * pitch + column < pitch * rows := by
  have hrows : (row + 1) * pitch ≤ rows * pitch := Nat.mul_le_mul_right _ hr
  rw [Nat.succ_mul] at hrows
  rw [Nat.mul_comm pitch]
  omega

/-- A position in rows of one pitch is a column of a row. -/
theorem exists_rowOffset {i rows pitch : Nat} (h : i < pitch * rows) :
    ∃ row < rows, ∃ column < pitch, i = row * pitch + column := by
  have hpitch : 0 < pitch := Nat.pos_of_lt_mul_right h
  exact ⟨i / pitch, Nat.div_lt_of_lt_mul h, i % pitch, Nat.mod_lt i hpitch,
    (Nat.div_add_mod' i pitch).symm⟩

/-- In rows of one pitch, a position lies in a run of a row exactly if the rows agree and its
column lies in the run. -/
theorem rowOffset_mem_iff {a b x n c pitch : Nat} (hx : x + n ≤ pitch) (hc : c < pitch) :
    a * pitch + x ≤ b * pitch + c ∧ b * pitch + c < a * pitch + x + n ↔
      a = b ∧ x ≤ c ∧ c < x + n := by
  constructor
  · intro ⟨hle, hlt⟩
    have hab : a = b := by
      rcases Nat.lt_trichotomy a b with h | h | h
      · have hrow : (a + 1) * pitch ≤ b * pitch := Nat.mul_le_mul_right _ h
        rw [Nat.succ_mul] at hrow
        omega
      · exact h
      · have hrow : (b + 1) * pitch ≤ a * pitch := Nat.mul_le_mul_right _ h
        rw [Nat.succ_mul] at hrow
        omega
    subst hab
    omega
  · rintro ⟨rfl, hle, hlt⟩
    omega

/-- The span of a cut rectangle in one direction: it starts in the tile and in the picture, and
ends in both. -/
structure IsCutSpan (start extent origin : Int) (tile padded : Nat) : Prop where
  start_nonneg : 0 ≤ start
  origin_le : origin ≤ start
  extent_pos : 0 < extent
  le_tile : start + extent ≤ tile
  le_picture : start + extent ≤ origin + padded
  offset_lt : start - origin < 2147483648

namespace CopyGeometry

variable {g : CopyGeometry}

/-- A rectangle is cut to the tile and to the picture in both directions, and its offset from the
origin is a 32-bit value that is not negative. -/
theorem isCutSpan_of_clip {r q : Rect} (h : g.clip r = some q) :
    IsCutSpan q.x.toInt q.width.toInt g.left.toInt g.tileWidth g.paddedWidth ∧
      IsCutSpan q.y.toInt q.height.toInt g.top.toInt g.tileHeight g.paddedHeight := by
  obtain ⟨p, hp, hq⟩ := Option.bind_eq_some_iff.mp h
  have htarget := Rect.isOverlap_of_intersect hq
  obtain ⟨hsl, hsr, hst, hsb⟩ := htarget.within.1.trans (Rect.isOverlap_of_intersect hp).within.2
  obtain ⟨htl, htr, htt, htb⟩ := htarget.within.2
  have hw := htarget.width_pos
  have hh := htarget.height_pos
  have hzero : (0 : Int32).toInt = 0 := rfl
  have htileWidth := toInt_ofNat_le g.tileWidth
  have htileHeight := toInt_ofNat_le g.tileHeight
  have hpaddedWidth := toInt_ofNat_le g.paddedWidth
  have hpaddedHeight := toInt_ofNat_le g.paddedHeight
  have hwidth := toInt_mem_range (Int32.ofNat g.paddedWidth)
  have hheight := toInt_mem_range (Int32.ofNat g.paddedHeight)
  simp only [sourceRect, targetRect, hzero] at hsl hsr hst hsb htl htr htt htb
  constructor <;> constructor <;> omega

/-- The chroma of a span lies in the chroma planes of the tile and of the picture. -/
structure IsSpan (g : CopyGeometry) (s : ChromaSpan) : Prop where
  source_cols : s.srcX + s.cols ≤ g.tileWidth / 2
  source_rows : s.srcY + s.rows ≤ PixelFormat.chromaRows g.tileHeight
  target_cols : s.dstX + s.cols ≤ g.paddedWidth / 2
  target_rows : s.dstY + s.rows ≤ g.paddedHeight / 2

/-- The span of a rectangle: half its corner on both sides, and half its size cut to what follows
the corner there. -/
structure IsSpanOf (g : CopyGeometry) (q : Rect) (s : ChromaSpan) : Prop where
  srcX_eq : s.srcX = q.x.toInt.toNat / 2
  srcY_eq : s.srcY = q.y.toInt.toNat / 2
  dstX_eq : s.dstX = g.columnOf q.x / 2
  dstY_eq : s.dstY = g.rowOf q.y / 2
  cols_eq : s.cols = min (min ((q.width.toInt.toNat + 1) / 2) (g.tileWidth / 2 - s.srcX))
    (g.paddedWidth / 2 - s.dstX)
  rows_eq : s.rows = min (min ((q.height.toInt.toNat + 1) / 2)
    (PixelFormat.chromaRows g.tileHeight - s.srcY)) (g.paddedHeight / 2 - s.dstY)
  cols_pos : 0 < s.cols
  rows_pos : 0 < s.rows

/-- A rectangle has no other span than its own. -/
theorem isSpanOf_of_chromaSpan {q : Rect} {s : ChromaSpan} (h : g.chromaSpan q = some s) :
    g.IsSpanOf q s := by
  unfold chromaSpan at h
  simp only at h
  split at h
  · next hpos =>
    cases h
    exact ⟨rfl, rfl, rfl, rfl, rfl, rfl, hpos.1, hpos.2⟩
  · cases h

/-- The spans of rectangles are cut to the chroma planes. -/
theorem isSpan_of_mem_spans {rects : List Rect} {s : ChromaSpan} (h : s ∈ g.spans rects) :
    g.IsSpan s := by
  obtain ⟨q, -, hspan⟩ := List.mem_filterMap.mp h
  have hof := isSpanOf_of_chromaSpan hspan
  have hcols := hof.cols_eq
  have hcolsPos := hof.cols_pos
  have hrows := hof.rows_eq
  have hrowsPos := hof.rows_pos
  constructor <;> omega

/-- Whether a picture has room for its planes: one and a half bytes a sample. -/
def HasRoom (g : CopyGeometry) (dst : ByteArray) : Prop := g.lumaLength * 3 / 2 ≤ dst.size

/-- Whether a tile holds all bytes of its luma and of its interleaved chroma. -/
def FillsTile (g : CopyGeometry) (src : ByteArray) : Prop :=
  PixelFormat.nv12.tileLength g.tileWidth g.tileHeight ≤ src.size

/-- Half the rows of luma pitch take at most half the bytes of the luma. -/
theorem chromaRowsLength_le (g : CopyGeometry) :
    g.paddedWidth * (g.paddedHeight / 2) ≤ g.lumaLength / 2 := by
  rw [lumaLength, Nat.le_div_iff_mul_le Nat.two_pos, Nat.mul_assoc]
  exact Nat.mul_le_mul_left _ (Nat.div_mul_le_self _ 2)

/-- Both separate chroma planes together take at most half the bytes of the luma. -/
theorem two_mul_chromaLength_le (g : CopyGeometry) : 2 * g.chromaLength ≤ g.lumaLength / 2 := by
  refine Nat.le_trans ?_ g.chromaRowsLength_le
  rw [chromaLength, ← Nat.mul_assoc, Nat.mul_comm 2]
  exact Nat.mul_le_mul_right _ (Nat.div_mul_le_self _ 2)

/-- A picture with room is long enough to be split into its planes. -/
theorem splitLength_le {dst : ByteArray} (h : g.HasRoom dst) (layout : PlaneLayout) :
    g.splitLength layout ≤ dst.size := by
  have hchroma := g.two_mul_chromaLength_le
  unfold HasRoom at h
  cases layout <;> simp only [splitLength] <;> omega

/-- The luma rows of a cut rectangle lie in the tile and in the picture's luma plane. -/
theorem lumaRow_inBounds {src dst : ByteArray} {r q : Rect} {row : Nat}
    (hsrc : g.FillsTile src) (hdst : g.HasRoom dst) (hq : g.clip r = some q)
    (hrow : row < q.height.toInt.toNat) : (g.lumaRow src q row).InBounds src dst := by
  intro k hk
  obtain ⟨hx, hy⟩ := isCutSpan_of_clip hq
  obtain ⟨hx0, hxl, hxw, hxt, hxp, -⟩ := hx
  obtain ⟨hy0, hyl, hyh, hyt, hyp, -⟩ := hy
  have hkw : k < q.width.toInt.toNat := hk
  have hs : (q.y.toInt.toNat + row) * g.tileWidth + (q.x.toInt.toNat + k) <
      g.tileWidth * g.tileHeight := rowOffset_lt (by omega) (by omega)
  have hd : (g.rowOf q.y + row) * g.paddedWidth + (g.columnOf q.x + k) <
      g.paddedWidth * g.paddedHeight := by
    apply rowOffset_lt
    · unfold rowOf
      omega
    · unfold columnOf
      omega
  simp only [FillsTile, HasRoom, PixelFormat.tileLength, lumaLength] at hsrc hdst
  simp only [lumaRow, Plane.whole, lumaLength]
  omega

/-- Whether a tile holds both bytes of every chroma sample of a span. -/
def HoldsSpan (g : CopyGeometry) (src : ByteArray) (s : ChromaSpan) : Prop :=
  ∀ row < s.rows, ∀ k < s.cols * 2,
    g.tileWidth * g.tileHeight + ((s.srcY + row) * g.tileWidth + (s.srcX * 2 + k)) < src.size

/-- A full tile holds the samples of every span. -/
theorem holdsSpan_of_fillsTile {src : ByteArray} {s : ChromaSpan} (hsrc : g.FillsTile src)
    (hs : g.IsSpan s) : g.HoldsSpan src s := by
  intro row hrow k hk
  have hcols := hs.source_cols
  have hrows := hs.source_rows
  have hread : (s.srcY + row) * g.tileWidth + (s.srcX * 2 + k) <
      g.tileWidth * PixelFormat.chromaRows g.tileHeight := rowOffset_lt (by omega) (by omega)
  simp only [FillsTile, PixelFormat.tileLength] at hsrc
  omega

/-- A row for one of the picture's separate planes stays within its planes exactly if the tile has
the bytes it takes. -/
theorem planarRow_inBounds_iff {src dst : ByteArray} {s : ChromaSpan} {row part start : Nat}
    (hs : g.IsSpan s) (hrow : row < s.rows) (hstart : start + g.chromaLength ≤ dst.size) :
    (g.planarRow src s row part start).InBounds src dst ↔ ∀ k < s.cols,
      g.tileWidth * g.tileHeight + ((s.srcY + row) * g.tileWidth + (s.srcX * 2 + (k * 2 + part))) <
        src.size := by
  have hcols := hs.target_cols
  have hrows := hs.target_rows
  have hwrite : ∀ k < s.cols, (s.dstY + row) * (g.paddedWidth / 2) + (s.dstX + k) <
      g.chromaLength := fun k hk => rowOffset_lt (by omega) (by omega)
  simp only [Transfer.InBounds, planarRow, sourceChroma, Plane.after]
  constructor
  · intro h k hk
    obtain ⟨-, hread, -⟩ := h k hk
    omega
  · intro h k hk
    have hread := h k hk
    have hwrite := hwrite k hk
    omega

/-- A row for the picture's interleaved plane stays within its planes exactly if the tile has the
bytes it takes. -/
theorem interleavedRow_inBounds_iff {src dst : ByteArray} {s : ChromaSpan} {row : Nat}
    (hdst : g.HasRoom dst) (hs : g.IsSpan s) (hrow : row < s.rows) :
    (g.interleavedRow src dst s row).InBounds src dst ↔ ∀ k < s.cols * 2,
      g.tileWidth * g.tileHeight + ((s.srcY + row) * g.tileWidth + (s.srcX * 2 + k)) <
        src.size := by
  have hcols := hs.target_cols
  have hrows := hs.target_rows
  have hwrite : ∀ k < s.cols * 2, (s.dstY + row) * g.paddedWidth + (s.dstX * 2 + k) <
      g.paddedWidth * (g.paddedHeight / 2) := fun k hk => rowOffset_lt (by omega) (by omega)
  have hhalf := g.chromaRowsLength_le
  simp only [HasRoom] at hdst
  simp only [Transfer.InBounds, interleavedRow, sourceChroma, Plane.after]
  constructor
  · intro h k hk
    obtain ⟨-, hread, -⟩ := h k hk
    omega
  · intro h k hk
    have hread := h k hk
    have hwrite := hwrite k hk
    omega

/-- In either layout of a picture with room, the rows of a span stay within their planes exactly if
the tile holds its samples. -/
theorem chromaTransfers_inBounds_iff {src dst : ByteArray} {s : ChromaSpan} (hdst : g.HasRoom dst)
    (hs : g.IsSpan s) (layout : PlaneLayout) :
    (∀ t ∈ chromaTransfers layout g src dst s, t.InBounds src dst) ↔ g.HoldsSpan src s := by
  cases layout with
  | i420 =>
    have hroom := splitLength_le hdst .i420
    simp only [splitLength] at hroom
    have hu : g.lumaLength + g.chromaLength ≤ dst.size := by omega
    have hv : g.lumaLength + g.chromaLength + g.chromaLength ≤ dst.size := by omega
    simp only [chromaTransfers, planarTransfers, List.forall_mem_flatMap, List.forall_mem_cons,
      List.mem_range]
    constructor
    · intro h row hrow k hk
      obtain ⟨hrowU, hrowV, -⟩ := h row hrow
      rcases Nat.mod_two_eq_zero_or_one k with hpart | hpart
      · have hread := (planarRow_inBounds_iff hs hrow hu).mp hrowU (k / 2) (by omega)
        omega
      · have hread := (planarRow_inBounds_iff hs hrow hv).mp hrowV (k / 2) (by omega)
        omega
    · intro h row hrow
      refine ⟨(planarRow_inBounds_iff hs hrow hu).mpr fun k hk => ?_,
        (planarRow_inBounds_iff hs hrow hv).mpr fun k hk => ?_, fun t ht => nomatch ht⟩
      · exact h row hrow (k * 2 + 0) (by omega)
      · exact h row hrow (k * 2 + 1) (by omega)
  | nv12 =>
    simp only [chromaTransfers, interleavedTransfers, List.forall_mem_map, List.mem_range]
    exact forall_congr' fun row => forall_congr' fun hrow =>
      interleavedRow_inBounds_iff hdst hs hrow

/-- The rows a damage copy moves into a picture with room stay within their planes exactly if the
luma rows do and the tile holds the samples of every span. -/
theorem transfers_inBounds_iff {src dst : ByteArray} (hdst : g.HasRoom dst) (layout : PlaneLayout)
    (rects : List Rect) :
    (∀ t ∈ transfers layout g src dst rects, t.InBounds src dst) ↔
      (∀ q ∈ rects.filterMap g.clip, ∀ row < q.height.toInt.toNat,
        (g.lumaRow src q row).InBounds src dst) ∧
      ∀ s ∈ g.spans rects, g.HoldsSpan src s := by
  simp only [transfers, List.forall_mem_append, List.forall_mem_flatMap, lumaTransfers,
    List.forall_mem_map, List.mem_range]
  exact and_congr_right fun _ => forall_congr' fun s => forall_congr' fun hs =>
    chromaTransfers_inBounds_iff hdst (isSpan_of_mem_spans hs) layout

/-- Every row a damage copy moves lies in a full tile and in a picture with room. -/
theorem transfers_inBounds {src dst : ByteArray} (hsrc : g.FillsTile src) (hdst : g.HasRoom dst)
    (layout : PlaneLayout) (rects : List Rect) :
    ∀ t ∈ transfers layout g src dst rects, t.InBounds src dst := by
  refine (transfers_inBounds_iff hdst layout rects).mpr ⟨?_, ?_⟩
  · intro q hq row hrow
    obtain ⟨r, -, hclip⟩ := List.mem_filterMap.mp hq
    exact lumaRow_inBounds hsrc hdst hclip hrow
  · exact fun s hs => holdsSpan_of_fillsTile hsrc (isSpan_of_mem_spans hs)

/-- A copy has a result exactly if the buffers are long enough to be split and every row it moves
stays within its planes. -/
theorem isSome_copy_iff {layout : PlaneLayout} {src dst : ByteArray} {rects : List Rect} :
    (copy layout g src dst rects).isSome ↔
      (g.splitLength layout ≤ dst.size ∧ g.tileWidth * g.tileHeight ≤ src.size) ∧
        ∀ t ∈ transfers layout g src dst rects, t.InBounds src dst := by
  rw [← Transfer.isSome_runAll_iff]
  unfold copy
  split
  · next hsplit => simp only [hsplit, true_and, and_self]
  · next hsplit => simp only [hsplit, false_and, Option.isSome_none, Bool.false_eq_true]

/-- The result of a copy is that of the rows it moves. -/
theorem runAll_of_copy {layout : PlaneLayout} {src dst out : ByteArray} {rects : List Rect}
    (h : copy layout g src dst rects = some out) :
    Transfer.runAll src (transfers layout g src dst rects) dst = some out := by
  unfold copy at h
  split at h
  · exact h
  · cases h

/-- A byte of the result of a copy is the byte of the tile that the last row moved there. -/
theorem getElem?_of_copy {layout : PlaneLayout} {src dst out : ByteArray} {rects : List Rect}
    (h : copy layout g src dst rects = some out) (j : Nat) : (Bytes.toList out)[j]? =
      (Transfer.lastSourceOf? (transfers layout g src dst rects) j).elim (Bytes.toList dst)[j]?
        fun i => (Bytes.toList src)[i]? :=
  Transfer.getElem?_of_runAll (runAll_of_copy h) j

/-- A copy keeps the size of the picture. -/
theorem size_of_copy {layout : PlaneLayout} {src dst out : ByteArray} {rects : List Rect}
    (h : copy layout g src dst rects = some out) : out.size = dst.size :=
  Transfer.size_of_runAll (runAll_of_copy h)

/-- A copy from a full tile into a picture with room has a result. -/
theorem isSome_copy {src dst : ByteArray} (hsrc : g.FillsTile src) (hdst : g.HasRoom dst)
    (layout : PlaneLayout) (rects : List Rect) : (copy layout g src dst rects).isSome := by
  have htile : g.tileWidth * g.tileHeight ≤ src.size := by
    simp only [FillsTile, PixelFormat.tileLength] at hsrc
    omega
  exact isSome_copy_iff.mpr
    ⟨⟨splitLength_le hdst layout, htile⟩, transfers_inBounds hsrc hdst layout rects⟩

/-- A copy from a full tile into a picture with room results in the bytes its rows move. -/
theorem exists_copy {src dst : ByteArray} (hsrc : g.FillsTile src) (hdst : g.HasRoom dst)
    (layout : PlaneLayout) (rects : List Rect) :
    ∃ out, copy layout g src dst rects = some out ∧ ∀ j, (Bytes.toList out)[j]? =
      (Transfer.lastSourceOf? (transfers layout g src dst rects) j).elim (Bytes.toList dst)[j]?
        fun i => (Bytes.toList src)[i]? := by
  obtain ⟨out, hout⟩ := Option.isSome_iff_exists.mp (isSome_copy hsrc hdst layout rects)
  exact ⟨out, hout, getElem?_of_copy hout⟩

end CopyGeometry

end FrameEncoder
