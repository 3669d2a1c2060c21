import FrameEncoder.Picture
import FrameEncoder.Proofs.Picture.CopiedSamples

/-!
# Planar and interleaved copies

Splitting the interleaved chroma of a picture into its U and V bytes moves every sample to where a
planar picture of an even width has it. Copying damage and splitting the chroma can therefore be
done in either order, and the planar copy has a result for the same tiles as the interleaved one.

The planes an encoder reads from a picture of even size begin and end where a copy has them.
-/

namespace FrameEncoder

namespace Picture

/-- A luma sample, read from the luma plane. -/
def lumaSample? (p : Picture) (dx dy : Nat) : Option UInt8 :=
  (Bytes.toList p.luma)[dy * p.width + dx]?

/-- A byte of a chroma sample, read from the chroma planes: part 0 is its U byte and part 1 its V
byte. -/
def chromaSample? (p : Picture) (cx cy part : Nat) : Option UInt8 :=
  match p.layout with
  | .i420 =>
    let plane := if part = 0 then p.chroma.1 else p.chroma.2
    (Bytes.toList plane)[cy * (p.width / 2) + cx]?
  | .nv12 => (Bytes.toList p.chroma.1)[cy * p.width + (cx * 2 + part)]?

end Picture

namespace CopyGeometry

variable {g : CopyGeometry}

/-- Where interleaved chroma has the byte that separate chroma planes have at an offset. Luma and
what follows the planes stay in place. -/
def interleavedOffset (g : CopyGeometry) (j : Nat) : Nat :=
  let k := j - g.lumaLength
  if j < g.lumaLength ∨ 2 * g.chromaLength ≤ k then j
  else if k < g.chromaLength then g.lumaLength + 2 * k
  else g.lumaLength + (2 * (k - g.chromaLength) + 1)

/-- A picture with its interleaved chroma split into a plane of U and a plane of V. -/
def deinterleave (g : CopyGeometry) (picture : ByteArray) : ByteArray :=
  Bytes.generate picture.size fun j => Bytes.byteAt (Bytes.toList picture) (g.interleavedOffset j)

/-- Splitting the chroma keeps the size. -/
theorem size_deinterleave (g : CopyGeometry) (picture : ByteArray) :
    (g.deinterleave picture).size = picture.size :=
  Bytes.size_generate ..

/-- A byte of a split picture is the one that interleaved chroma has for it. -/
theorem getElem?_deinterleave {picture : ByteArray}
    (hroom : g.lumaLength + 2 * g.chromaLength ≤ picture.size) (j : Nat) :
    (Bytes.toList (g.deinterleave picture))[j]? =
      (Bytes.toList picture)[g.interleavedOffset j]? := by
  by_cases hj : j < picture.size
  · have hlt : g.interleavedOffset j < (Bytes.toList picture).length := by
      rw [Bytes.length_toList]
      unfold interleavedOffset
      grind
    rw [deinterleave, Bytes.getElem?_generate _ hj, Bytes.byteAt, List.getElem?_eq_getElem hlt,
      Option.getD_some]
  · have hbehind : g.interleavedOffset j = j := if_pos (by omega)
    have hsplit : (Bytes.toList (g.deinterleave picture)).length ≤ j := by
      rw [Bytes.length_toList, size_deinterleave]
      omega
    have hwhole : (Bytes.toList picture).length ≤ j := by
      rw [Bytes.length_toList]
      omega
    rw [hbehind, List.getElem?_eq_none hsplit, List.getElem?_eq_none hwhole]

/-- Eight bytes of luma, two chroma samples and one byte behind them. -/
example :
    let g : CopyGeometry := ⟨0, 0, 0, 0, 4, 2⟩
    Bytes.toList (g.deinterleave (Bytes.generate 13 UInt8.ofNat)) =
      [0, 1, 2, 3, 4, 5, 6, 7, 8, 10, 9, 11, 12] := by
  decide +kernel

/-- Luma stays in place. -/
theorem luma?_deinterleave {picture : ByteArray}
    (hroom : g.lumaLength + 2 * g.chromaLength ≤ picture.size) {dx dy : Nat}
    (hdx : dx < g.paddedWidth) (hdy : dy < g.paddedHeight) :
    g.luma? (g.deinterleave picture) dx dy = g.luma? picture dx dy := by
  have hplace : g.interleavedOffset (g.lumaOffset dx dy) = g.lumaOffset dx dy :=
    if_pos (.inl (lumaOffset_lt hdx hdy))
  rw [luma?, getElem?_deinterleave hroom, hplace, luma?]

/-- A row of an even pitch takes two rows of half the pitch. -/
theorem rowOffset_of_even (hwidth : g.paddedWidth % 2 = 0) (cy : Nat) :
    cy * g.paddedWidth = 2 * (cy * (g.paddedWidth / 2)) := by
  rw [Nat.mul_left_comm, Nat.mul_div_cancel' (Nat.dvd_of_mod_eq_zero hwidth)]

/-- The bytes of either separate plane are every other byte of the interleaved chroma. -/
theorem interleavedOffset_plane {k part : Nat} (hk : k < g.chromaLength) (hpart : part < 2) :
    g.interleavedOffset (g.lumaLength + part * g.chromaLength + k) =
      g.lumaLength + (2 * k + part) := by
  unfold interleavedOffset
  obtain rfl | rfl : part = 0 ∨ part = 1 := by omega
  · rw [if_neg (by omega), if_pos (by omega)]
    omega
  · rw [if_neg (by omega), if_neg (by omega)]
    omega

/-- In a picture of even width, the two bytes of a chroma sample become neighbours. -/
theorem interleavedOffset_chromaOffset (hwidth : g.paddedWidth % 2 = 0) {cx cy part : Nat}
    (hcx : cx < g.paddedWidth / 2) (hcy : cy < g.paddedHeight / 2) (hpart : part < 2) :
    g.interleavedOffset (chromaOffset .i420 g cx cy part) = chromaOffset .nv12 g cx cy part := by
  have hpitch := rowOffset_of_even hwidth cy
  rw [chromaOffset, interleavedOffset_plane (rowOffset_lt hcy hcx) hpart, chromaOffset]
  omega

/-- A chroma sample keeps its value. -/
theorem chroma?_deinterleave (hwidth : g.paddedWidth % 2 = 0) {picture : ByteArray}
    (hroom : g.lumaLength + 2 * g.chromaLength ≤ picture.size) {cx cy part : Nat}
    (hcx : cx < g.paddedWidth / 2) (hcy : cy < g.paddedHeight / 2) (hpart : part < 2) :
    chroma? .i420 g (g.deinterleave picture) cx cy part = chroma? .nv12 g picture cx cy part := by
  rw [chroma?, getElem?_deinterleave hroom, interleavedOffset_chromaOffset hwidth hcx hcy hpart,
    chroma?]

/-- What follows the planes stays in place. -/
theorem getElem?_deinterleave_of_le {picture : ByteArray}
    (hroom : g.lumaLength + 2 * g.chromaLength ≤ picture.size) {j : Nat}
    (hj : g.lumaLength + 2 * g.chromaLength ≤ j) :
    (Bytes.toList (g.deinterleave picture))[j]? = (Bytes.toList picture)[j]? := by
  have hplace : g.interleavedOffset j = j := if_pos (.inr (by omega))
  rw [getElem?_deinterleave hroom, hplace]

/-- Every byte of the three planes of a planar picture belongs to a sample. -/
theorem isSample_of_lt {j : Nat} (hj : j < g.lumaLength + 2 * g.chromaLength) :
    IsSample .i420 g j := by
  have hplane : ∀ part < 2, ∀ k < g.chromaLength,
      IsSample .i420 g (g.lumaLength + part * g.chromaLength + k) := by
    intro part hpart k hk
    obtain ⟨cy, hcy, cx, hcx, rfl⟩ := exists_rowOffset hk
    exact .chroma hcx hcy hpart
  by_cases hluma : j < g.lumaLength
  · obtain ⟨dy, hdy, dx, hdx, rfl⟩ := exists_rowOffset hluma
    exact .luma hdx hdy
  · by_cases hu : j - g.lumaLength < g.chromaLength
    · have hsample := hplane 0 (by decide) (j - g.lumaLength) hu
      rwa [show g.lumaLength + 0 * g.chromaLength + (j - g.lumaLength) = j by omega] at hsample
    · have hsample := hplane 1 (by decide) (j - g.lumaLength - g.chromaLength) (by omega)
      rwa [show g.lumaLength + 1 * g.chromaLength + (j - g.lumaLength - g.chromaLength) = j by
        omega] at hsample

/-- Planar pictures are equal if their samples and what follows their planes are. -/
theorem eq_of_samples {a b : ByteArray}
    (hluma : ∀ dx < g.paddedWidth, ∀ dy < g.paddedHeight, g.luma? a dx dy = g.luma? b dx dy)
    (hchroma : ∀ cx < g.paddedWidth / 2, ∀ cy < g.paddedHeight / 2, ∀ part < 2,
      chroma? .i420 g a cx cy part = chroma? .i420 g b cx cy part)
    (hrest : ∀ j, g.lumaLength + 2 * g.chromaLength ≤ j →
      (Bytes.toList a)[j]? = (Bytes.toList b)[j]?) : a = b := by
  refine Bytes.ext (List.ext_getElem? fun j => ?_)
  by_cases hj : j < g.lumaLength + 2 * g.chromaLength
  · cases isSample_of_lt hj with
    | luma hdx hdy => exact hluma _ hdx _ hdy
    | chroma hcx hcy hpart => exact hchroma _ hcx _ hcy _ hpart
  · exact hrest j (by omega)

/-- In a picture of even width, no sample lies behind the planes of a planar picture. -/
theorem IsSample.lt_of_even (hwidth : g.paddedWidth % 2 = 0) {layout : PlaneLayout} {j : Nat}
    (h : IsSample layout g j) : j < g.lumaLength + 2 * g.chromaLength := by
  cases h with
  | luma hdx hdy => exact Nat.lt_add_right _ (lumaOffset_lt hdx hdy)
  | @chroma cx cy part hcx hcy hpart =>
    have hsample : cy * (g.paddedWidth / 2) + cx < g.chromaLength := rowOffset_lt hcy hcx
    have hpitch := rowOffset_of_even hwidth cy
    obtain rfl | rfl : part = 0 ∨ part = 1 := by omega
    all_goals
      cases layout <;> simp only [chromaOffset] <;> omega

/-- The interleaved copy of a picture has a result for the same tiles as the planar copy of the
split picture. -/
theorem isSome_copy_deinterleave_iff {dst : ByteArray} (hdst : g.HasRoom dst) (src : ByteArray)
    (rects : List Rect) : (copy .nv12 g src dst rects).isSome ↔
      (copy .i420 g src (g.deinterleave dst) rects).isSome := by
  have hsize := g.size_deinterleave dst
  have hsplit : g.HasRoom (g.deinterleave dst) := by
    rw [HasRoom, hsize]
    exact hdst
  have hlumaRows : ∀ q row, (g.lumaRow src q row).InBounds src dst ↔
      (g.lumaRow src q row).InBounds src (g.deinterleave dst) := fun q row =>
    ⟨fun h => h.of_size_eq hsize, fun h => h.of_size_eq hsize.symm⟩
  -- The luma rows are the same, and whether the tile holds a span has nothing to do with the picture.
  simp only [isSome_copy_iff, splitLength_le hdst, splitLength_le hsplit,
    transfers_inBounds_iff hdst, transfers_inBounds_iff hsplit, hlumaRows]

/-- The split interleaved copy of a picture is the planar copy of the split picture. -/
theorem deinterleave_of_copy (hwidth : g.paddedWidth % 2 = 0) {src dst out planar : ByteArray}
    {rects : List Rect} (hdst : g.HasRoom dst) (hout : copy .nv12 g src dst rects = some out)
    (hplanar : copy .i420 g src (g.deinterleave dst) rects = some planar) :
    g.deinterleave out = planar := by
  have hroom : g.lumaLength + 2 * g.chromaLength ≤ dst.size := splitLength_le hdst .i420
  have hroomOut : g.lumaLength + 2 * g.chromaLength ≤ out.size := by
    rw [size_of_copy hout]
    exact hroom
  -- What a copy makes of a sample depends on its layout only through the sample's old value.
  apply eq_of_samples (g := g)
  · intro dx hdx dy hdy
    rw [luma?_deinterleave hroomOut hdx hdy, luma?_copy hout hdx hdy, luma?_copy hplanar hdx hdy,
      luma?_deinterleave hroom hdx hdy]
  · intro cx hcx cy hcy part hpart
    rw [chroma?_deinterleave hwidth hroomOut hcx hcy hpart, chroma?_copy hout hcx hcy hpart,
      chroma?_copy hplanar hcx hcy hpart, chroma?_deinterleave hwidth hroom hcx hcy hpart]
  · intro j hj
    have hnone : ∀ layout, ¬ IsSample layout g j := fun layout hsample =>
      Nat.not_le.mpr (hsample.lt_of_even hwidth) hj
    rw [getElem?_deinterleave_of_le hroomOut hj, getElem?_copy_of_not_isSample hout (hnone _),
      getElem?_copy_of_not_isSample hplanar (hnone _), getElem?_deinterleave_of_le hroom hj]

/-- The picture an encoder is given of a buffer. -/
def pictureIn (layout : PlaneLayout) (g : CopyGeometry) (data : ByteArray) : Picture where
  width := g.paddedWidth
  height := g.paddedHeight
  layout := layout
  data := data

/-- The sizes of the chroma planes of a picture. -/
def chromaPlaneLengths (layout : PlaneLayout) (g : CopyGeometry) : Nat × Nat :=
  match layout with
  | .i420 => (g.chromaLength, g.chromaLength)
  | .nv12 => (2 * g.chromaLength, 0)

/-- The planes of the picture an encoder is given are those a copy writes: each has the size of its
rows, and its bytes are the samples in their order. -/
structure ShowsSamples (layout : PlaneLayout) (g : CopyGeometry) (data : ByteArray) : Prop where
  luma_size : (pictureIn layout g data).luma.size = g.lumaLength
  luma_sample : ∀ dx < g.paddedWidth, ∀ dy < g.paddedHeight,
    (pictureIn layout g data).lumaSample? dx dy = g.luma? data dx dy
  chroma_sizes : ((pictureIn layout g data).chroma.1.size,
    (pictureIn layout g data).chroma.2.size) = chromaPlaneLengths layout g
  chroma_sample : ∀ cx < g.paddedWidth / 2, ∀ cy < g.paddedHeight / 2, ∀ part < 2,
    (pictureIn layout g data).chromaSample? cx cy part = chroma? layout g data cx cy part

/-- For even sizes, luma takes four times the bytes of a separate chroma plane. -/
theorem lumaLength_of_even (hwidth : g.paddedWidth % 2 = 0) (hheight : g.paddedHeight % 2 = 0) :
    g.lumaLength = 4 * g.chromaLength := by
  calc g.paddedWidth * g.paddedHeight
      = 2 * (g.paddedWidth / 2) * (2 * (g.paddedHeight / 2)) := by
        rw [Nat.mul_div_cancel' (Nat.dvd_of_mod_eq_zero hwidth),
          Nat.mul_div_cancel' (Nat.dvd_of_mod_eq_zero hheight)]
    _ = 4 * (g.paddedWidth / 2 * (g.paddedHeight / 2)) := Nat.mul_mul_mul_comm ..

/-- The separate chroma planes an encoder reads follow the luma, each with its own length. -/
theorem chroma_pictureIn_i420 (hquarter : g.lumaLength = 4 * g.chromaLength) (data : ByteArray) :
    (pictureIn .i420 g data).chroma = (Bytes.window data g.lumaLength g.chromaLength,
      Bytes.window data (g.lumaLength + g.chromaLength) g.chromaLength) := by
  have hlength : g.paddedWidth * g.paddedHeight / 4 = g.chromaLength := by
    rw [← lumaLength, hquarter, Nat.mul_div_cancel_left _ (by decide)]
  simp only [Picture.chroma, pictureIn, hlength]
  rfl

/-- The interleaved chroma plane an encoder reads follows the luma, as long as both separate planes
together. -/
theorem chroma_pictureIn_nv12 (hquarter : g.lumaLength = 4 * g.chromaLength) (data : ByteArray) :
    (pictureIn .nv12 g data).chroma =
      (Bytes.window data g.lumaLength (2 * g.chromaLength), .empty) := by
  have hlength : g.paddedWidth * g.paddedHeight / 2 = 2 * g.chromaLength := by
    rw [← lumaLength]
    omega
  simp only [Picture.chroma, pictureIn, hlength]
  rfl

/-- A picture of even size with its planes in the buffer shows its samples. -/
theorem showsSamples_of_even (hwidth : g.paddedWidth % 2 = 0) (hheight : g.paddedHeight % 2 = 0)
    {data : ByteArray} (hroom : g.lumaLength + 2 * g.chromaLength ≤ data.size)
    (layout : PlaneLayout) : ShowsSamples layout g data where
  luma_size := by
    have hwindow : (pictureIn layout g data).luma = Bytes.window data 0 g.lumaLength := rfl
    rw [hwindow, Bytes.size_window (by omega)]
  luma_sample dx hdx dy hdy := by
    have hlt : dy * g.paddedWidth + dx < g.lumaLength := lumaOffset_lt hdx hdy
    have hread := Bytes.getElem?_window data 0 hlt
    rwa [Nat.zero_add] at hread
  chroma_sizes := by
    have hquarter := lumaLength_of_even hwidth hheight
    cases layout with
    | i420 =>
      rw [chroma_pictureIn_i420 hquarter, chromaPlaneLengths, Bytes.size_window (by omega),
        Bytes.size_window (by omega)]
    | nv12 =>
      rw [chroma_pictureIn_nv12 hquarter, chromaPlaneLengths, Bytes.size_window (by omega)]
      rfl
  chroma_sample cx hcx cy hcy part hpart := by
    have hquarter := lumaLength_of_even hwidth hheight
    have hsample : cy * (g.paddedWidth / 2) + cx < g.chromaLength := rowOffset_lt hcy hcx
    cases layout with
    | i420 =>
      obtain rfl | rfl : part = 0 ∨ part = 1 := by omega
      · have hread : (pictureIn .i420 g data).chromaSample? cx cy 0 =
            (Bytes.toList (pictureIn .i420 g data).chroma.1)[cy * (g.paddedWidth / 2) + cx]? := rfl
        rw [hread, chroma_pictureIn_i420 hquarter, Bytes.getElem?_window data _ hsample, chroma?,
          chromaOffset, Nat.zero_mul, Nat.add_zero]
      · have hread : (pictureIn .i420 g data).chromaSample? cx cy 1 =
            (Bytes.toList (pictureIn .i420 g data).chroma.2)[cy * (g.paddedWidth / 2) + cx]? := rfl
        rw [hread, chroma_pictureIn_i420 hquarter, Bytes.getElem?_window data _ hsample, chroma?,
          chromaOffset, Nat.one_mul]
    | nv12 =>
      have hpitch := rowOffset_of_even hwidth cy
      have hbyte : cy * g.paddedWidth + (cx * 2 + part) < 2 * g.chromaLength := by omega
      have hread : (pictureIn .nv12 g data).chromaSample? cx cy part =
          (Bytes.toList (pictureIn .nv12 g data).chroma.1)[cy * g.paddedWidth + (cx * 2 + part)]? :=
        rfl
      rw [hread, chroma_pictureIn_nv12 hquarter, Bytes.getElem?_window data _ hbyte, chroma?,
        chromaOffset]

/-- What the planes an encoder reads hold after a copy: what the copy wrote, and elsewhere what they
held before. They have the sizes of their rows, and nothing changed behind them. -/
structure ShowsCopy (layout : PlaneLayout) (g : CopyGeometry) (src dst : ByteArray)
    (rects : List Rect) (out : ByteArray) : Prop extends ShowsSamples layout g out where
  luma_copied : ∀ dx < g.paddedWidth, ∀ dy < g.paddedHeight,
    (pictureIn layout g out).lumaSample? dx dy =
      if g.Damages rects (g.screenColumn dx) (g.screenRow dy) then
        g.tileLuma? src (g.screenColumn dx) (g.screenRow dy)
      else (pictureIn layout g dst).lumaSample? dx dy
  chroma_copied : ∀ cx < g.paddedWidth / 2, ∀ cy < g.paddedHeight / 2, ∀ part < 2,
    (pictureIn layout g out).chromaSample? cx cy part =
      match g.lastSpan? rects cx cy with
      | some s => g.tileChroma? src (s.srcX + (cx - s.dstX)) (s.srcY + (cy - s.dstY)) part
      | none => (pictureIn layout g dst).chromaSample? cx cy part
  behind_unchanged : ∀ j, g.lumaLength + 2 * g.chromaLength ≤ j →
    (Bytes.toList out)[j]? = (Bytes.toList dst)[j]?

/-- The planes of a picture of even size show a copy into it. -/
theorem showsCopy_of_even (hwidth : g.paddedWidth % 2 = 0) (hheight : g.paddedHeight % 2 = 0)
    {layout : PlaneLayout} {src dst out : ByteArray} {rects : List Rect} (hdst : g.HasRoom dst)
    (h : copy layout g src dst rects = some out) : ShowsCopy layout g src dst rects out := by
  have hroom : g.lumaLength + 2 * g.chromaLength ≤ dst.size := splitLength_le hdst .i420
  have hbefore := showsSamples_of_even hwidth hheight hroom layout
  have hafter := showsSamples_of_even hwidth hheight (size_of_copy h ▸ hroom) layout
  refine ⟨hafter, ?_, ?_, ?_⟩
  · intro dx hdx dy hdy
    rw [hafter.luma_sample dx hdx dy hdy, hbefore.luma_sample dx hdx dy hdy, luma?_copy h hdx hdy]
  · intro cx hcx cy hcy part hpart
    rw [hafter.chroma_sample cx hcx cy hcy part hpart, chroma?_copy h hcx hcy hpart]
    cases g.lastSpan? rects cx cy with
    | none => exact (hbefore.chroma_sample cx hcx cy hcy part hpart).symm
    | some s => rfl
  · intro j hj
    refine getElem?_copy_of_not_isSample h fun hsample => ?_
    exact Nat.not_le.mpr (hsample.lt_of_even hwidth) hj

/-- Copying damage into an interleaved picture of even size and then splitting its chroma is copying
it into the split picture, also in that neither has a result if the tile is too short. In either
layout the planes an encoder reads are those the copy wrote. A full tile has a result. -/
theorem copy_deinterleave (hwidth : g.paddedWidth % 2 = 0) (hheight : g.paddedHeight % 2 = 0)
    {dst : ByteArray} (hdst : g.HasRoom dst) (src : ByteArray) (rects : List Rect) :
    (copy .nv12 g src dst rects).map g.deinterleave =
      copy .i420 g src (g.deinterleave dst) rects ∧
    (∀ layout out, copy layout g src dst rects = some out →
      ShowsCopy layout g src dst rects out) ∧
    (g.FillsTile src → ∀ layout, (copy layout g src dst rects).isSome) := by
  refine ⟨?_, fun layout out hout => showsCopy_of_even hwidth hheight hdst hout, ?_⟩
  · have hsome := isSome_copy_deinterleave_iff hdst src rects
    cases hout : copy .nv12 g src dst rects with
    | none =>
      rw [hout] at hsome
      exact (Option.not_isSome_iff_eq_none.mp fun hplanar => nomatch hsome.mpr hplanar).symm
    | some out =>
      obtain ⟨planar, hplanar⟩ := Option.isSome_iff_exists.mp (hsome.mp (Option.isSome_of_mem hout))
      rw [hplanar, Option.map_some, deinterleave_of_copy hwidth hdst hout hplanar]
  · exact fun hsrc layout => isSome_copy hsrc hdst layout rects

/-- Two overlapping rectangles at an odd origin, in a picture with two bytes behind its planes: the
interleaved chroma plane ends before these bytes, and its first V byte is that of the tile. -/
theorem copy_deinterleave_odd_origin :
    let g : CopyGeometry := ⟨1, 0, 6, 4, 4, 4⟩
    let src := Bytes.generate 36 fun i => UInt8.ofNat (i + 1)
    let dst := Bytes.generate 26 fun i => UInt8.ofNat (i + 100)
    let rects : List Rect := [⟨1, 0, 2, 2⟩, ⟨2, 0, 3, 2⟩]
    ∃ out, copy .nv12 g src dst rects = some out ∧
      copy .i420 g src (g.deinterleave dst) rects = some (g.deinterleave out) ∧
        (pictureIn .nv12 g out).chroma.1.size = 8 ∧
          (pictureIn .nv12 g out).chromaSample? 0 0 1 = some 28 := by
  intro g src dst rects
  have hsrc : g.FillsTile src := by
    rw [FillsTile, Bytes.size_generate]
    decide
  have hdst : g.HasRoom dst := by
    rw [HasRoom, Bytes.size_generate]
    decide
  have hbytes : Bytes.toList src = (List.range 36).map fun i => UInt8.ofNat (i + 1) :=
    Bytes.toList_generate ..
  obtain ⟨hplanar, hshows, hsome⟩ :=
    copy_deinterleave (g := g) (by decide) (by decide) hdst src rects
  obtain ⟨out, hout⟩ := Option.isSome_iff_exists.mp (hsome hsrc .nv12)
  rw [hout, Option.map_some] at hplanar
  have hplanes := hshows .nv12 out hout
  have hsizes := hplanes.chroma_sizes.trans (show chromaPlaneLengths .nv12 g = (8, 0) by decide)
  refine ⟨out, hout, hplanar.symm, (Prod.mk.inj hsizes).1, ?_⟩
  have hlast : g.lastSpan? rects 0 0 = some ⟨1, 0, 0, 0, 2, 1⟩ := by decide
  rw [hplanes.chroma_copied 0 (by decide) 0 (by decide) 1 (by decide), hlast]
  simp only [tileChroma?, hbytes]
  rfl

end CopyGeometry

end FrameEncoder
