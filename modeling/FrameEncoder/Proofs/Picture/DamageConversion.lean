import FrameEncoder.Proofs.Picture.ConvertedBytes
import FrameEncoder.Proofs.Rect.CommonPoints

/-!
# Converting only the damage

A tile of packed colour is converted only where it is damaged, and then the damage is copied into
a picture. The copy cuts the damage to the tile and to the picture and takes the chroma of half of
what is left, rounded up; the conversion cuts it to the tile alone and converts every block it
touches. So whatever the copy reads was converted, at odd corners and odd edges too, and nothing
else of the buffer reaches the picture.
-/

namespace FrameEncoder

namespace Transfer

/-- Transfers that read the same bytes of two sources have the same result, if they have one. -/
theorem runAll_congr {a b : ByteArray} {ts : List Transfer}
    (h : ∀ t ∈ ts, ∀ k < t.count,
      t.source.read? a (t.src + k * t.srcStep) = t.source.read? b (t.src + k * t.srcStep))
    (dst : ByteArray) : runAll a ts dst = runAll b ts dst := by
  have hmove : ∀ (t : Transfer) (count s d : Nat) (dst : ByteArray),
      (∀ k < count,
        t.source.read? a (s + k * t.srcStep) = t.source.read? b (s + k * t.srcStep)) →
      t.moveFrom a count s d dst = t.moveFrom b count s d dst := by
    intro t count
    induction count with
    | zero => exact fun _ _ _ _ => rfl
    | succ count ih =>
      intro s d dst hread
      have hfirst := hread 0 (Nat.succ_pos _)
      rw [Nat.zero_mul, Nat.add_zero] at hfirst
      have hrest : ∀ (d : Nat) (dst : ByteArray),
          t.moveFrom a count (s + t.srcStep) d dst = t.moveFrom b count (s + t.srcStep) d dst := by
        refine fun d dst => ih _ _ _ fun k hk => ?_
        have hnext := hread (k + 1) (Nat.succ_lt_succ hk)
        rwa [Nat.succ_mul, Nat.add_comm (k * t.srcStep), ← Nat.add_assoc] at hnext
      simp only [moveFrom, hfirst, hrest]
  induction ts generalizing dst with
  | nil => rfl
  | cons t ts ih =>
    have hrun : t.run a dst = t.run b dst := hmove t _ _ _ dst (h t List.mem_cons_self)
    have hrest := ih fun u hu => h u (List.mem_cons_of_mem _ hu)
    simp only [runAll, hrun, hrest]

end Transfer

namespace Plane

/-- Buffers with one byte at an offset of a plane are read alike there. -/
theorem read?_congr {p : Plane} {a b : ByteArray} {i : Nat}
    (h : (Bytes.toList a)[p.start + i]? = (Bytes.toList b)[p.start + i]?) :
    p.read? a i = p.read? b i := by
  refine Option.ext fun v => ?_
  rw [read?_eq_some_iff, read?_eq_some_iff, h]

end Plane

namespace CopyGeometry

/-- What is copied depends on the size of the tile's buffer only, not on its bytes. -/
theorem transfers_congr {a b : ByteArray} (hsize : a.size = b.size) (layout : PlaneLayout)
    (g : CopyGeometry) (dst : ByteArray) (rects : List Rect) :
    transfers layout g a dst rects = transfers layout g b dst rects := by
  have hluma : g.lumaRow a = g.lumaRow b := by
    funext q row
    simp only [lumaRow, Plane.whole, hsize]
  have hplanar : g.planarRow a = g.planarRow b := by
    funext s row part start
    simp only [planarRow, sourceChroma, Plane.after, hsize]
  have hinterleaved : g.interleavedRow a dst = g.interleavedRow b dst := by
    funext s row
    simp only [interleavedRow, sourceChroma, Plane.after, hsize]
  have hchroma : chromaTransfers layout g a dst = chromaTransfers layout g b dst := by
    funext s
    cases layout with
    | i420 => simp only [chromaTransfers, planarTransfers, hplanar]
    | nv12 => simp only [chromaTransfers, interleavedTransfers, hinterleaved]
  have hlumaTransfers : g.lumaTransfers a = g.lumaTransfers b := by
    funext q
    rw [lumaTransfers, lumaTransfers, hluma]
  rw [transfers, transfers, hlumaTransfers, hchroma]

end CopyGeometry

namespace RgbConversion.Tile

variable {t : Tile} {g : CopyGeometry}

/-- Whether a copy is of a converted tile: it is given the sizes of the tile. -/
structure IsCopiedBy (t : Tile) (g : CopyGeometry) : Prop where
  width_eq : g.tileWidth = t.width
  height_eq : g.tileHeight = t.height

/-- The cut rectangles of a copy lie within those of the conversion. -/
theorem IsCopiedBy.exists_within (hg : t.IsCopiedBy g) {r q : Rect} (hclip : g.clip r = some q) :
    ∃ p, r.intersect t.rect = some p ∧ q.Within p := by
  obtain ⟨p, hp, hq⟩ := Option.bind_eq_some_iff.mp hclip
  have hrect : g.sourceRect = t.rect := by
    rw [CopyGeometry.sourceRect, hg.width_eq, hg.height_eq, rect]
  exact ⟨p, hrect ▸ hp, (Rect.isOverlap_of_intersect hq).within.1⟩

/-- Where a copy reads a sample of luma, the pixel was converted. -/
theorem reaches_lumaRow (hg : t.IsCopiedBy g) {rects : List Rect} {r q : Rect} (hr : r ∈ rects)
    (hclip : g.clip r = some q) {row k : Nat} (hrow : row < q.height.toInt.toNat)
    (hk : k < q.width.toInt.toNat) :
    t.Reaches rects ((q.y.toInt.toNat + row) * g.tileWidth + q.x.toInt.toNat + k) := by
  obtain ⟨p, hp, hl, hright, htop, hbottom⟩ := hg.exists_within hclip
  refine ⟨p, List.mem_filterMap.mpr ⟨r, hr, hp⟩,
    .inl ⟨q.x.toInt.toNat + k, q.y.toInt.toNat + row, ?_, ?_⟩⟩
  · obtain ⟨hx, hy⟩ := CopyGeometry.isCutSpan_of_clip hclip
    have hx0 := hx.start_nonneg
    have hy0 := hy.start_nonneg
    simp only [Grid.Has, pixels]
    omega
  · rw [lumaOffset, hg.width_eq, Nat.add_assoc]

/-- Half a run, rounded up and taken from half its start on, lies within the halves a run around it
touches. -/
theorem half_add_lt {start extent start' extent' : Int} (hstart : 0 ≤ start')
    (hle : start' ≤ start) (hend : start + extent ≤ start' + extent') {k : Nat}
    (hk : k < (extent.toNat + 1) / 2) :
    start'.toNat / 2 ≤ start.toNat / 2 + k ∧
      start.toNat / 2 + k < (start'.toNat + extent'.toNat + 1) / 2 := by
  omega

/-- Where a copy reads a byte of chroma, the block was converted. -/
theorem reaches_chroma (hg : t.IsCopiedBy g) {rects : List Rect} {r q : Rect} (hr : r ∈ rects)
    (hclip : g.clip r = some q) {s : ChromaSpan} (hspan : g.chromaSpan q = some s)
    {row k part : Nat} (hrow : row < s.rows) (hk : k < s.cols) (hpart : part < 2) :
    t.Reaches rects (g.tileWidth * g.tileHeight +
      ((s.srcY + row) * g.tileWidth + ((s.srcX + k) * 2 + part))) := by
  obtain ⟨p, hp, hl, hright, htop, hbottom⟩ := hg.exists_within hclip
  refine ⟨p, List.mem_filterMap.mpr ⟨r, hr, hp⟩,
    .inr ⟨s.srcX + k, s.srcY + row, ?_, part, hpart, ?_⟩⟩
  · obtain ⟨-, hpl, -, hpt, -⟩ := (Rect.isOverlap_of_intersect hp).within
    have hzero : (0 : Int32).toInt = 0 := rfl
    simp only [rect, hzero] at hpl hpt
    unfold CopyGeometry.chromaSpan at hspan
    simp only [hg.width_eq] at hspan
    split at hspan
    · cases hspan
      simp only [Nat.lt_min] at hrow hk
      obtain ⟨hcolumn, hcolumn'⟩ := half_add_lt hpl hl hright hk.1.1
      obtain ⟨hrow, hrow'⟩ := half_add_lt hpt htop hbottom hrow.1.1
      have hedge : q.x.toInt.toNat / 2 + k < t.width / 2 := Nat.add_lt_of_lt_sub' hk.1.2
      have hlast := Nat.lt_min.mpr ⟨hcolumn', hedge⟩
      have hcols := Nat.add_sub_of_le (Nat.le_of_lt (Nat.lt_of_le_of_lt hcolumn hlast))
      have hrows := Nat.add_sub_of_le (Nat.le_of_lt (Nat.lt_of_le_of_lt hrow hrow'))
      exact ⟨hcolumn, Nat.lt_of_lt_of_eq hlast hcols.symm, hrow,
        Nat.lt_of_lt_of_eq hrow' hrows.symm⟩
    · cases hspan
  · rw [chromaOffset, hg.width_eq, hg.height_eq]

/-- Whatever a copy of the damage reads was converted. -/
theorem reaches_of_mem_transfers (hg : t.IsCopiedBy g) {layout : PlaneLayout}
    {src dst : ByteArray} {rects : List Rect} {transfer : Transfer}
    (ht : transfer ∈ g.transfers layout src dst rects) {k : Nat} (hk : k < transfer.count) :
    t.Reaches rects (transfer.source.start + (transfer.src + k * transfer.srcStep)) := by
  rcases List.mem_append.mp ht with hluma | hchroma
  · obtain ⟨q, hq, hmem⟩ := List.mem_flatMap.mp hluma
    obtain ⟨r, hr, hclip⟩ := List.mem_filterMap.mp hq
    obtain ⟨row, hrow, rfl⟩ := List.mem_map.mp hmem
    simp only [CopyGeometry.lumaRow, Plane.whole, Nat.zero_add, Nat.mul_one]
    exact reaches_lumaRow hg hr hclip (List.mem_range.mp hrow) hk
  · obtain ⟨s, hs, hmem⟩ := List.mem_flatMap.mp hchroma
    obtain ⟨q, hq, hspan⟩ := List.mem_filterMap.mp hs
    obtain ⟨r, hr, hclip⟩ := List.mem_filterMap.mp hq
    cases layout with
    | i420 =>
      obtain ⟨row, hrow, hplane⟩ := List.mem_flatMap.mp hmem
      obtain ⟨part, start, hpart, rfl⟩ :
          ∃ part start, part < 2 ∧ transfer = g.planarRow src s row part start := by
        simp only [List.mem_cons, List.not_mem_nil, or_false] at hplane
        rcases hplane with rfl | rfl
        · exact ⟨0, _, by decide, rfl⟩
        · exact ⟨1, _, by decide, rfl⟩
      have hbyte : g.tileWidth * g.tileHeight +
          ((s.srcY + row) * g.tileWidth + s.srcX * 2 + part + k * 2) =
          g.tileWidth * g.tileHeight +
            ((s.srcY + row) * g.tileWidth + ((s.srcX + k) * 2 + part)) := by omega
      simp only [CopyGeometry.planarRow, CopyGeometry.sourceChroma, Plane.after, hbyte]
      exact reaches_chroma hg hr hclip hspan (List.mem_range.mp hrow) hk hpart
    | nv12 =>
      obtain ⟨row, hrow, rfl⟩ := List.mem_map.mp hmem
      have hk' : k / 2 < s.cols := Nat.div_lt_of_lt_mul (Nat.mul_comm 2 _ ▸ hk)
      have hbyte : g.tileWidth * g.tileHeight +
          ((s.srcY + row) * g.tileWidth + s.srcX * 2 + k * 1) =
          g.tileWidth * g.tileHeight +
            ((s.srcY + row) * g.tileWidth + ((s.srcX + k / 2) * 2 + k % 2)) := by omega
      simp only [CopyGeometry.interleavedRow, CopyGeometry.sourceChroma, Plane.after, hbyte]
      exact reaches_chroma hg hr hclip hspan (List.mem_range.mp hrow) hk'
        (Nat.mod_lt k Nat.two_pos)

/-- The rectangle of a tile that has a part is cut to itself. -/
theorem intersect_rect {r q : Rect} (h : r.intersect t.rect = some q) :
    ∃ p, t.rect.intersect t.rect = some p ∧ q.Within p := by
  obtain ⟨hl, htop, hw, hh, hright, hbottom⟩ := Rect.isOverlap_of_intersect h
  obtain ⟨x, y, -, hhas, hend⟩ := (Rect.isSome_intersect_iff r t.rect).mp (Option.isSome_of_mem h)
  obtain ⟨p, hp⟩ := Option.isSome_iff_exists.mp
    ((Rect.isSome_intersect_iff t.rect t.rect).mpr ⟨x, y, hhas, hhas, hend⟩)
  obtain ⟨hpl, hptop, -, -, hpright, hpbottom⟩ := Rect.isOverlap_of_intersect hp
  exact ⟨p, hp, by omega, by omega, by omega, by omega⟩

/-- Whatever a conversion reaches, that of the whole tile reaches too. -/
theorem Reaches.whole {rects : List Rect} {i : Nat} (h : t.Reaches rects i) :
    t.Reaches [t.rect] i := by
  obtain ⟨q, hq, hreaches⟩ := h
  obtain ⟨r, -, hr⟩ := List.mem_filterMap.mp hq
  obtain ⟨p, hp, hl, hright, htop, hbottom⟩ := intersect_rect hr
  have hw := (Rect.isOverlap_of_intersect hr).width_pos
  have hh := (Rect.isOverlap_of_intersect hr).height_pos
  refine ⟨p, List.mem_filterMap.mpr ⟨t.rect, List.mem_singleton_self _, hp⟩, ?_⟩
  have hpl := (Rect.isOverlap_of_intersect hp).within.2.left_le
  have hpt := (Rect.isOverlap_of_intersect hp).within.2.top_le
  have hzero : (0 : Int32).toInt = 0 := rfl
  simp only [rect, hzero] at hpl hpt
  rcases hreaches with ⟨x, y, hxy, rfl⟩ | ⟨cx, cy, hc, part, hpart, rfl⟩
  · refine .inl ⟨x, y, ?_, rfl⟩
    simp only [Grid.Has, pixels] at hxy ⊢
    omega
  · refine .inr ⟨cx, cy, ?_, part, hpart, rfl⟩
    simp only [Grid.Has, blocks, pixels] at hc ⊢
    omega

/-- A tile converted only where it is damaged, and one converted as a whole, leave the same
picture when the damage is copied, whatever else is in the buffers they are converted into. The
copy has a result if the picture has room. -/
theorem copy_convert_eq (ht : t.IsFull) (hg : t.IsCopiedBy g) {a b : ByteArray} (ha : t.FitsIn a)
    (hsize : a.size = b.size) (layout : PlaneLayout) (rects : List Rect) (dst : ByteArray) :
    ∃ damaged whole, t.convert rects a = some damaged ∧ t.convert [t.rect] b = some whole ∧
      g.copy layout damaged dst rects = g.copy layout whole dst rects ∧
      (g.HasRoom dst → (g.copy layout damaged dst rects).isSome) := by
  have hb : t.FitsIn b := by
    rw [FitsIn, ← hsize]
    exact ha
  obtain ⟨damaged, hdamaged, hfits⟩ := exists_convert ht rects ha
  obtain ⟨whole, hwhole, -⟩ := exists_convert ht [t.rect] hb
  refine ⟨damaged, whole, hdamaged, hwhole, ?_, fun hroom => ?_⟩
  · have hsizes : damaged.size = whole.size := by
      rw [size_of_convert hdamaged, size_of_convert hwhole, hsize]
    have hrun : Transfer.runAll damaged (g.transfers layout damaged dst rects) dst =
        Transfer.runAll whole (g.transfers layout damaged dst rects) dst := by
      refine Transfer.runAll_congr (fun transfer htransfer k hk => Plane.read?_congr ?_) dst
      have hreaches := reaches_of_mem_transfers hg htransfer hk
      have hread : t.IsConvertedAt _ damaged := isConvertedAt_of_convert hdamaged hreaches
      have hread' : t.IsConvertedAt _ whole := isConvertedAt_of_convert hwhole hreaches.whole
      rw [hread, hread']
    rw [CopyGeometry.copy, CopyGeometry.copy, hrun, hsizes,
      CopyGeometry.transfers_congr hsizes]
  · have hfills : g.FillsTile damaged := by
      rw [CopyGeometry.FillsTile, hg.width_eq, hg.height_eq]
      exact hfits
    obtain ⟨out, hout, -⟩ := CopyGeometry.exists_copy hfills hroom layout rects
    rw [hout]
    rfl

/-- A tile of three by three pixels with damage in its last corner: the two conversions differ, but
the copies do not. -/
theorem copy_convert_eq_corner :
    let t : Tile := ⟨Bytes.generate 36 fun i => UInt8.ofNat (7 * i), .bgra, 3, 3⟩
    let g : CopyGeometry := ⟨0, 0, 3, 3, 16, 16⟩
    let rects : List Rect := [⟨1, 1, 2, 2⟩]
    let blank := Bytes.zeros 15
    t.convert rects blank ≠ t.convert [t.rect] blank ∧
      ∃ damaged whole out, t.convert rects blank = some damaged ∧
        t.convert [t.rect] blank = some whole ∧
          g.copy .i420 damaged (Bytes.zeros 512) rects = some out ∧
            g.copy .i420 whole (Bytes.zeros 512) rects = some out := by
  intro t g rects blank
  have hfull : t.IsFull := by
    rw [IsFull, Bytes.size_generate]
    decide
  have hfits : t.FitsIn blank := by
    rw [FitsIn, Bytes.size_zeros]
    decide
  have hroom : g.HasRoom (Bytes.zeros 512) := by
    rw [CopyGeometry.HasRoom, Bytes.size_zeros]
    decide
  obtain ⟨damaged, whole, hdamaged, hwhole, hcopies, hresult⟩ :=
    copy_convert_eq hfull (g := g) ⟨rfl, rfl⟩ hfits rfl .i420 rects (Bytes.zeros 512)
  obtain ⟨out, hout⟩ := Option.isSome_iff_exists.mp (hresult hroom)
  exact ⟨by decide +kernel, damaged, whole, out, hdamaged, hwhole, hout, hcopies ▸ hout⟩

end RgbConversion.Tile

end FrameEncoder
