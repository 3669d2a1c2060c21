import FrameEncoder.Proofs.Picture.Conversion

/-!
# What a conversion writes

The fully converted tile has one byte at each offset, whichever rectangles are converted and in
what order. Every byte a conversion writes is that of its offset, so overlapping rectangles never
disagree: in the end the byte of the converted tile stands at every offset the rectangles reach.
-/

namespace FrameEncoder.RgbConversion

/-- An offset in rows of one pitch tells its column and its row. -/
theorem rowOffset_mod_div {column pitch : Nat} (row : Nat) (h : column < pitch) :
    (row * pitch + column) % pitch = column ∧ (row * pitch + column) / pitch = row := by
  refine ⟨by rw [Nat.mul_add_mod', Nat.mod_eq_of_lt h], ?_⟩
  rw [Nat.add_comm, Nat.add_mul_div_right _ _ (Nat.zero_lt_of_lt h), Nat.div_eq_of_lt h,
    Nat.zero_add]

/-- Different columns or rows have different offsets. -/
theorem rowOffset_inj {column column' row row' pitch : Nat} (hlt : column < pitch)
    (hlt' : column' < pitch) (h : row * pitch + column = row' * pitch + column') :
    column = column' ∧ row = row' := by
  obtain ⟨hrow, hle, hlt⟩ :=
    (rowOffset_mem_iff (n := 1) hlt hlt').mp ⟨Nat.le_of_eq h, h ▸ Nat.lt_succ_self _⟩
  exact ⟨Nat.le_antisymm hle (Nat.le_of_lt_succ hlt), hrow⟩

namespace Grid

variable {g : Grid} {f : Nat → Nat → ByteArray → Option ByteArray} {Q : ByteArray → Prop}

/-- A row of a visit keeps what each of its calls keeps. -/
theorem row_keeps (hf : ∀ px py, g.Has px py → ∀ b c, f px py b = some c → Q b → Q c) {py : Nat}
    (hpy : py ∈ List.range' g.y g.rows) {b c : ByteArray}
    (h : (List.range' g.x g.cols).foldlM (fun dst px => f px py dst) b = some c) (hb : Q b) :
    Q c := by
  obtain ⟨hy, hy'⟩ := List.mem_range'_1.mp hpy
  refine foldlM_keeps (fun px hpx => ?_) h hb
  obtain ⟨hx, hx'⟩ := List.mem_range'_1.mp hpx
  exact hf px py ⟨hx, hx', hy, hy'⟩

/-- A visit keeps what each of its calls keeps. -/
theorem visit_keeps (hf : ∀ px py, g.Has px py → ∀ b c, f px py b = some c → Q b → Q c)
    {dst out : ByteArray} (h : g.visit f dst = some out) (hdst : Q dst) : Q out :=
  foldlM_keeps (fun _ hpy _ _ hrow hb => row_keeps hf hpy hrow hb) h hdst

/-- What the call for one point of a visit brings about and every call keeps holds in the end. -/
theorem visit_reaches (hf : ∀ px py, g.Has px py → ∀ b c, f px py b = some c → Q b → Q c)
    {px py : Nat} (hp : g.Has px py) (hreach : ∀ b c, f px py b = some c → Q c)
    {dst out : ByteArray} (h : g.visit f dst = some out) : Q out := by
  obtain ⟨hx, hx', hy, hy'⟩ := hp
  refine foldlM_reaches (fun _ hpy _ _ hrow hb => row_keeps hf hpy hrow hb)
    (List.mem_range'_1.mpr ⟨hy, hy'⟩) (fun b c hrow => ?_) h
  refine foldlM_reaches (fun px hpx => ?_) (List.mem_range'_1.mpr ⟨hx, hx'⟩) hreach hrow
  obtain ⟨hx, hx'⟩ := List.mem_range'_1.mp hpx
  exact hf px py ⟨hx, hx', hy, hy'⟩

end Grid

namespace Tile

variable {t : Tile}

/-- Where the luma of a pixel lies in the converted tile. -/
def lumaOffset (t : Tile) (x y : Nat) : Nat := y * t.width + x

/-- Where a byte of the chroma of a block lies in the converted tile: part 0 is its U byte and
part 1 its V byte. -/
def chromaOffset (t : Tile) (cx cy part : Nat) : Nat :=
  t.width * t.height + (cy * t.width + (cx * 2 + part))

/-- The byte of the fully converted tile at an offset. -/
def byteAt? (t : Tile) (i : Nat) : Option UInt8 :=
  if i < t.width * t.height then (t.colourAt? (i % t.width) (i / t.width)).map Colour.luma
  else
    let k := i - t.width * t.height
    (t.blockMean? (k % t.width / 2) (k / t.width)).map
      (if k % t.width % 2 = 0 then Colour.chromaU else Colour.chromaV)

/-- The byte of the converted tile at the luma of a pixel. -/
theorem byteAt?_lumaOffset {x y : Nat} (hx : x < t.width) (hy : y < t.height) :
    t.byteAt? (t.lumaOffset x y) = (t.colourAt? x y).map Colour.luma := by
  have hlt : t.lumaOffset x y < t.width * t.height := rowOffset_lt hy hx
  obtain ⟨hcolumn, hrow⟩ := rowOffset_mod_div y hx
  rw [byteAt?, if_pos hlt, lumaOffset, hcolumn, hrow]

/-- The bytes of the converted tile at the chroma of a block. -/
theorem byteAt?_chromaOffset {cx cy part : Nat} (hcx : cx < t.width / 2) (hpart : part < 2) :
    t.byteAt? (t.chromaOffset cx cy part) = (t.blockMean? cx cy).map
      (if part = 0 then Colour.chromaU else Colour.chromaV) := by
  obtain ⟨hcolumn, hrow⟩ := rowOffset_mod_div cy
    (show cx * 2 + part < t.width by omega)
  have hblock : (cx * 2 + part) / 2 = cx := by omega
  have hparity : (cx * 2 + part) % 2 = part := by omega
  rw [byteAt?, chromaOffset, if_neg (Nat.not_lt.mpr (Nat.le_add_right _ _))]
  simp only [Nat.add_sub_cancel_left, hcolumn, hrow, hblock, hparity]

/-- A buffer with the byte of the converted tile at an offset. -/
def IsConvertedAt (t : Tile) (i : Nat) (buffer : ByteArray) : Prop :=
  (Bytes.toList buffer)[i]? = t.byteAt? i

/-- Writing a byte of the converted tile converts its offset and keeps all converted ones. -/
theorem isConvertedAt_of_write? {p : Plane} {dst out : ByteArray} {d : Nat} {v : UInt8}
    (hwrite : p.write? dst d v = some out) (hv : t.byteAt? (p.start + d) = some v) :
    t.IsConvertedAt (p.start + d) out ∧ ∀ i, t.IsConvertedAt i dst → t.IsConvertedAt i out := by
  obtain ⟨-, hlt, hout⟩ := Plane.toList_of_write? hwrite
  have hself : t.IsConvertedAt (p.start + d) out := by
    have hin : p.start + d < (Bytes.toList dst).length := hlt
    rw [IsConvertedAt, hout, List.getElem?_set_self hin, hv]
  refine ⟨hself, fun i hi => ?_⟩
  by_cases hsame : p.start + d = i
  · exact hsame ▸ hself
  · rw [IsConvertedAt, hout, List.getElem?_set_ne hsame]
    exact hi

/-- Writing the luma of a pixel converts it. -/
theorem isConvertedAt_of_writeLuma {x y : Nat} (hx : x < t.width) (hy : y < t.height)
    {dst out : ByteArray} (h : t.writeLuma x y dst = some out) :
    t.IsConvertedAt (t.lumaOffset x y) out ∧
      ∀ i, t.IsConvertedAt i dst → t.IsConvertedAt i out := by
  unfold writeLuma at h
  split at h
  · next c hc =>
    have hbyte : t.byteAt? (t.lumaPlane.start + (y * t.width + x)) = some c.luma := by
      rw [lumaPlane, Nat.zero_add]
      exact (byteAt?_lumaOffset hx hy).trans (congrArg (Option.map Colour.luma) hc)
    have hconverted := isConvertedAt_of_write? h hbyte
    rw [lumaPlane, Nat.zero_add] at hconverted
    exact hconverted
  · cases h

/-- Writing the chroma of a block converts both its bytes. -/
theorem isConvertedAt_of_writeChroma {cx cy : Nat} (hcx : cx < t.width / 2)
    {dst out : ByteArray} (h : t.writeChroma cx cy dst = some out) :
    (∀ part < 2, t.IsConvertedAt (t.chromaOffset cx cy part) out) ∧
      ∀ i, t.IsConvertedAt i dst → t.IsConvertedAt i out := by
  unfold writeChroma at h
  split at h
  · next c hc =>
    simp only at h
    split at h
    · next mid hmid =>
      have hmean : ∀ part < 2, t.byteAt? (t.chromaOffset cx cy part) =
          some ((if part = 0 then Colour.chromaU else Colour.chromaV) c) := by
        intro part hpart
        rw [byteAt?_chromaOffset hcx hpart, hc]
        rfl
      obtain ⟨hu, hkeepU⟩ := isConvertedAt_of_write? hmid (hmean 0 (by decide))
      obtain ⟨hv, hkeepV⟩ := isConvertedAt_of_write? h (hmean 1 (by decide))
      refine ⟨fun part hpart => ?_, fun i hi => hkeepV i (hkeepU i hi)⟩
      obtain rfl | rfl : part = 0 ∨ part = 1 := by omega
      · exact hkeepV _ hu
      · exact hv
    · cases h
  · cases h

/-- The offsets a cut rectangle reaches: the luma of its pixels and the chroma of its blocks. -/
def RectReaches (t : Tile) (q : Rect) (i : Nat) : Prop :=
  (∃ x y, (pixels q).Has x y ∧ i = t.lumaOffset x y) ∨
    ∃ cx cy, (t.blocks q).Has cx cy ∧ ∃ part < 2, i = t.chromaOffset cx cy part

/-- Converting a cut rectangle converts the offsets it reaches and keeps all converted ones. -/
theorem isConvertedAt_of_convertRect {r q : Rect} (hq : r.intersect t.rect = some q)
    {dst out : ByteArray} (h : t.convertRect dst q = some out) {i : Nat}
    (hi : t.RectReaches q i ∨ t.IsConvertedAt i dst) : t.IsConvertedAt i out := by
  unfold convertRect at h
  split at h
  · next mid hmid =>
    have hluma : ∀ x y, (pixels q).Has x y → ∀ b c, t.writeLuma x y b = some c →
        t.IsConvertedAt i b → t.IsConvertedAt i c := by
      intro x y hxy b c hwrite
      obtain ⟨hx, hy⟩ := pixels_lt hq hxy
      exact (isConvertedAt_of_writeLuma hx hy hwrite).2 i
    have hchroma : ∀ cx cy, (t.blocks q).Has cx cy → ∀ b c, t.writeChroma cx cy b = some c →
        t.IsConvertedAt i b → t.IsConvertedAt i c := by
      intro cx cy hc b c hwrite
      exact (isConvertedAt_of_writeChroma (blocks_lt hq hc).1 hwrite).2 i
    rcases hi with (⟨x, y, hxy, rfl⟩ | ⟨cx, cy, hc, part, hpart, rfl⟩) | hi
    · refine Grid.visit_keeps hchroma h (Grid.visit_reaches hluma hxy (fun b c hwrite => ?_) hmid)
      obtain ⟨hx, hy⟩ := pixels_lt hq hxy
      exact (isConvertedAt_of_writeLuma hx hy hwrite).1
    · refine Grid.visit_reaches hchroma hc (fun b c hwrite => ?_) h
      exact (isConvertedAt_of_writeChroma (blocks_lt hq hc).1 hwrite).1 part hpart
    · exact Grid.visit_keeps hchroma h (Grid.visit_keeps hluma hmid hi)
  · cases h

/-- The offsets a conversion reaches. -/
def Reaches (t : Tile) (rects : List Rect) (i : Nat) : Prop :=
  ∃ q ∈ rects.filterMap (fun r => r.intersect t.rect), t.RectReaches q i

/-- A conversion has the byte of the fully converted tile at every offset it reaches. -/
theorem isConvertedAt_of_convert {rects : List Rect} {dst out : ByteArray}
    (h : t.convert rects dst = some out) {i : Nat} (hi : t.Reaches rects i) :
    t.IsConvertedAt i out := by
  unfold convert at h
  split at h
  · obtain ⟨q, hq, hreaches⟩ := hi
    have hcut : ∀ q ∈ rects.filterMap (fun r => r.intersect t.rect),
        ∃ r : Rect, r.intersect t.rect = some q := by
      intro q hq
      obtain ⟨r, -, hr⟩ := List.mem_filterMap.mp hq
      exact ⟨r, hr⟩
    refine foldlM_reaches (fun q' hq' b c hrect hb => ?_) hq (fun b c hrect => ?_) h
    · obtain ⟨r, hr⟩ := hcut q' hq'
      exact isConvertedAt_of_convertRect hr hrect (.inr hb)
    · obtain ⟨r, hr⟩ := hcut q hq
      exact isConvertedAt_of_convertRect hr hrect (.inl hreaches)
  · cases h

/-- Writing the luma of a pixel changes no other byte. -/
theorem getElem?_of_writeLuma {x y i : Nat} (hi : i ≠ t.lumaOffset x y) {dst out : ByteArray}
    (h : t.writeLuma x y dst = some out) : (Bytes.toList out)[i]? = (Bytes.toList dst)[i]? := by
  unfold writeLuma at h
  split at h
  · refine Plane.getElem?_of_write? h fun hsame => hi ?_
    rw [← hsame, lumaPlane, Nat.zero_add, lumaOffset]
  · cases h

/-- Writing the chroma of a block changes no other byte. -/
theorem getElem?_of_writeChroma {cx cy i : Nat} (hi : ∀ part < 2, i ≠ t.chromaOffset cx cy part)
    {dst out : ByteArray} (h : t.writeChroma cx cy dst = some out) :
    (Bytes.toList out)[i]? = (Bytes.toList dst)[i]? := by
  unfold writeChroma at h
  split at h
  · simp only at h
    split at h
    · next mid hmid =>
      have hkeepU : (Bytes.toList mid)[i]? = (Bytes.toList dst)[i]? :=
        Plane.getElem?_of_write? hmid fun hsame => hi 0 (by decide) hsame.symm
      have hkeepV : (Bytes.toList out)[i]? = (Bytes.toList mid)[i]? :=
        Plane.getElem?_of_write? h fun hsame => hi 1 (by decide) hsame.symm
      rw [hkeepV, hkeepU]
    · cases h
  · cases h

/-- Converting a cut rectangle changes no byte that it does not reach. -/
theorem getElem?_of_convertRect {q : Rect} {i : Nat} (hi : ¬ t.RectReaches q i)
    {dst out : ByteArray} (h : t.convertRect dst q = some out) :
    (Bytes.toList out)[i]? = (Bytes.toList dst)[i]? := by
  unfold convertRect at h
  split at h
  · next mid hmid =>
    have hmidKept := Grid.visit_keeps (Q := fun b => (Bytes.toList b)[i]? = (Bytes.toList dst)[i]?)
      (fun x y hxy b c hwrite hb => by
        rw [getElem?_of_writeLuma (fun hsame => hi (.inl ⟨x, y, hxy, hsame⟩)) hwrite, hb]) hmid rfl
    exact Grid.visit_keeps (Q := fun b => (Bytes.toList b)[i]? = (Bytes.toList dst)[i]?)
      (fun cx cy hc b c hwrite hb => by
        rw [getElem?_of_writeChroma
          (fun part hpart hsame => hi (.inr ⟨cx, cy, hc, part, hpart, hsame⟩)) hwrite, hb])
      h hmidKept
  · cases h

/-- A conversion changes no byte that it does not reach. -/
theorem getElem?_of_convert {rects : List Rect} {i : Nat} (hi : ¬ t.Reaches rects i)
    {dst out : ByteArray} (h : t.convert rects dst = some out) :
    (Bytes.toList out)[i]? = (Bytes.toList dst)[i]? := by
  unfold convert at h
  split at h
  · refine foldlM_keeps (Q := fun b => (Bytes.toList b)[i]? = (Bytes.toList dst)[i]?)
      (fun q hq b c hrect hb => ?_) h rfl
    rw [getElem?_of_convertRect (fun hreaches => hi ⟨q, hq, hreaches⟩) hrect, hb]
  · cases h

/-- A conversion keeps the size of the buffer. -/
theorem size_of_convert {rects : List Rect} {dst out : ByteArray}
    (h : t.convert rects dst = some out) : out.size = dst.size := by
  have hluma : ∀ x y b c, t.writeLuma x y b = some c → b.size = dst.size → c.size = dst.size := by
    intro x y b c hwrite hb
    unfold writeLuma at hwrite
    split at hwrite
    · rw [Plane.size_of_write? hwrite, hb]
    · cases hwrite
  have hchroma : ∀ cx cy b c, t.writeChroma cx cy b = some c → b.size = dst.size →
      c.size = dst.size := by
    intro cx cy b c hwrite hb
    unfold writeChroma at hwrite
    split at hwrite
    · simp only at hwrite
      split at hwrite
      · next hmid => rw [Plane.size_of_write? hwrite, Plane.size_of_write? hmid, hb]
      · cases hwrite
    · cases hwrite
  unfold convert at h
  split at h
  · refine foldlM_keeps (Q := fun b => b.size = dst.size) (fun q _ b c hrect hb => ?_) h rfl
    unfold convertRect at hrect
    split at hrect
    · next hmid =>
      exact Grid.visit_keeps (fun cx cy _ => hchroma cx cy) hrect
        (Grid.visit_keeps (fun x y _ => hluma x y) hmid hb)
    · cases hrect
  · cases h

end Tile

end FrameEncoder.RgbConversion
