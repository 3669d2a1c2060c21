import FrameEncoder.FrameHeader

/-!
# Frame headers and their wire form

A header is read back from its wire form exactly if it fits there: at most 65535 rectangles, each
with a corner of signed and a size of unsigned 16-bit numbers. Every header that was read fits. Its
wire form is the beginning of the bytes it was read from, but for the flag bits that mean nothing and
a frame id that does not count, which are cleared.
-/

namespace FrameEncoder

namespace Bytes

/-- The value of a 16-bit word. -/
theorem toNat_word16At (bytes : List UInt8) (i : Nat) : (word16At bytes i).toNat =
    (byteAt bytes i).toNat + 256 * (byteAt bytes (i + 1)).toNat := by
  have hlow := (byteAt bytes i).toNat_lt
  have hhigh := (byteAt bytes (i + 1)).toNat_lt
  have hshift : (byteAt bytes (i + 1)).toNat <<< 8 % 2 ^ 16 = (byteAt bytes (i + 1)).toNat <<< 8 :=
    Nat.mod_eq_of_lt (by rw [Nat.shiftLeft_eq]; omega)
  rw [word16At, UInt16.toNat_or, UInt16.toNat_shiftLeft, UInt8.toNat_toUInt16,
    UInt8.toNat_toUInt16]
  show _ ||| _ <<< 8 % 2 ^ 16 = _
  rw [hshift, Nat.or_comm, ← Nat.shiftLeft_add_eq_or_of_lt hlow, Nat.shiftLeft_eq]
  omega

/-- The value of a 32-bit word. -/
theorem toNat_word32At (bytes : List UInt8) (i : Nat) : (word32At bytes i).toNat =
    (word16At bytes i).toNat + 65536 * (word16At bytes (i + 2)).toNat := by
  have hlow := (word16At bytes i).toNat_lt
  have hhigh := (word16At bytes (i + 2)).toNat_lt
  have hshift : (word16At bytes (i + 2)).toNat <<< 16 % 2 ^ 32 =
      (word16At bytes (i + 2)).toNat <<< 16 :=
    Nat.mod_eq_of_lt (by rw [Nat.shiftLeft_eq]; omega)
  rw [word32At, UInt32.toNat_or, UInt32.toNat_shiftLeft, UInt16.toNat_toUInt32,
    UInt16.toNat_toUInt32]
  show _ ||| _ <<< 16 % 2 ^ 32 = _
  rw [hshift, Nat.or_comm, ← Nat.shiftLeft_add_eq_or_of_lt hlow, Nat.shiftLeft_eq]
  omega

/-- The high byte of a 16-bit word. -/
theorem toNat_high16 (w : UInt16) : (w >>> 8).toUInt8.toNat = w.toNat / 256 := by
  have hlt := w.toNat_lt
  simp only [UInt16.toNat_toUInt8, UInt16.toNat_shiftRight, UInt16.reduceToNat, Nat.reduceMod,
    Nat.shiftRight_eq_div_pow, Nat.reducePow]
  omega

/-- A byte of a 32-bit word. -/
theorem toNat_byte32 (w : UInt32) {s : UInt32} {n : Nat} (hs : s.toNat = n) (hn : n < 32) :
    (w >>> s).toUInt8.toNat = w.toNat >>> n % 256 := by
  rw [UInt32.toNat_toUInt8, UInt32.toNat_shiftRight, hs, Nat.mod_eq_of_lt hn]

/-- A word whose bytes are at an offset is read there. -/
theorem word16At_eq {bytes : List UInt8} {i : Nat} {w : UInt16}
    (h0 : byteAt bytes i = w.toUInt8) (h1 : byteAt bytes (i + 1) = (w >>> 8).toUInt8) :
    word16At bytes i = w := by
  apply UInt16.toNat_inj.mp
  rw [toNat_word16At, h0, h1, UInt16.toNat_toUInt8, toNat_high16]
  omega

/-- A word whose bytes are at an offset is read there. -/
theorem word32At_eq {bytes : List UInt8} {i : Nat} {w : UInt32}
    (h0 : byteAt bytes i = w.toUInt8) (h1 : byteAt bytes (i + 1) = (w >>> 8).toUInt8)
    (h2 : byteAt bytes (i + 2) = (w >>> 16).toUInt8)
    (h3 : byteAt bytes (i + 3) = (w >>> 24).toUInt8) : word32At bytes i = w := by
  have hlt := w.toNat_lt
  apply UInt32.toNat_inj.mp
  rw [toNat_word32At, toNat_word16At, toNat_word16At, h0, h1, h2, h3, UInt32.toNat_toUInt8,
    toNat_byte32 w (n := 8) rfl (by omega), toNat_byte32 w (n := 16) rfl (by omega),
    toNat_byte32 w (n := 24) rfl (by omega)]
  omega

/-- A word that is read has the bytes it was read from. -/
theorem ofUInt16_word16At (bytes : List UInt8) (i : Nat) :
    ofUInt16 (word16At bytes i) = [byteAt bytes i, byteAt bytes (i + 1)] := by
  have hword := toNat_word16At bytes i
  have hlow := (byteAt bytes i).toNat_lt
  have h0 : (word16At bytes i).toUInt8 = byteAt bytes i := by
    apply UInt8.toNat_inj.mp
    rw [UInt16.toNat_toUInt8]
    omega
  have h1 : (word16At bytes i >>> 8).toUInt8 = byteAt bytes (i + 1) := by
    apply UInt8.toNat_inj.mp
    rw [toNat_high16]
    omega
  rw [ofUInt16, h0, h1]

/-- The bytes of a 32-bit word are those of its halves. -/
theorem ofUInt32_word32At (bytes : List UInt8) (i : Nat) :
    ofUInt32 (word32At bytes i) =
      ofUInt16 (word16At bytes i) ++ ofUInt16 (word16At bytes (i + 2)) := by
  have hword := toNat_word32At bytes i
  have hlow := (word16At bytes i).toNat_lt
  have hhigh := (word16At bytes (i + 2)).toNat_lt
  have h0 : (word32At bytes i).toUInt8 = (word16At bytes i).toUInt8 := by
    apply UInt8.toNat_inj.mp
    rw [UInt32.toNat_toUInt8, UInt16.toNat_toUInt8]
    omega
  have h1 : (word32At bytes i >>> 8).toUInt8 = (word16At bytes i >>> 8).toUInt8 := by
    apply UInt8.toNat_inj.mp
    rw [toNat_byte32 _ (n := 8) rfl (by omega), toNat_high16]
    omega
  have h2 : (word32At bytes i >>> 16).toUInt8 = (word16At bytes (i + 2)).toUInt8 := by
    apply UInt8.toNat_inj.mp
    rw [toNat_byte32 _ (n := 16) rfl (by omega), UInt16.toNat_toUInt8]
    omega
  have h3 : (word32At bytes i >>> 24).toUInt8 = (word16At bytes (i + 2) >>> 8).toUInt8 := by
    apply UInt8.toNat_inj.mp
    rw [toNat_byte32 _ (n := 24) rfl (by omega), toNat_high16]
    omega
  rw [ofUInt32, h0, h1, h2, h3]
  rfl

/-- The first bytes of a list. -/
theorem take_eq_map_byteAt {bytes : List UInt8} {n : Nat} (hn : n ≤ bytes.length) :
    bytes.take n = (List.range n).map (byteAt bytes) := by
  apply List.ext_getElem
  · simp [hn]
  · intro i h _
    have hi : i < bytes.length := by
      rw [List.length_take] at h
      omega
    simp [byteAt, hi]

end Bytes

/-- The low 16 bits of a 32-bit number. -/
theorem toNat_low16 (a : Int32) : (a.toInt16.toUInt16.toNat : Int) = a.toInt % 65536 := by
  have hlt := a.toInt16.toUInt16.toNat_lt
  have hword : (a.toInt16.toUInt16.toNat : Int).bmod 65536 = a.toInt.bmod 65536 := by
    rw [← show a.toInt16.toInt = a.toInt.bmod 65536 from Int32.toInt_toInt16 a]
    exact (BitVec.toInt_eq_toNat_bmod _).symm
  have hmod := congrArg (· % ((65536 : Nat) : Int)) hword
  simp only [Int.bmod_emod] at hmod
  omega

/-- An unsigned 16-bit number stands for itself among the 32-bit numbers. -/
theorem toInt_wide (w : UInt16) : w.toUInt32.toInt32.toInt = w.toNat := by
  have hlt := w.toNat_lt
  show w.toUInt32.toBitVec.toInt = w.toNat
  rw [BitVec.toInt_eq_toNat_of_lt]
  · rfl
  · show 2 * w.toUInt32.toNat < 2 ^ 32
    rw [UInt16.toNat_toUInt32]
    omega

/-- Whether a rectangle fits a header: a corner of signed and a size of unsigned 16-bit numbers. -/
structure Rect.FitsHeader (r : Rect) : Prop where
  x_mem : -32768 ≤ r.x.toInt ∧ r.x.toInt ≤ 32767
  y_mem : -32768 ≤ r.y.toInt ∧ r.y.toInt ≤ 32767
  width_mem : 0 ≤ r.width.toInt ∧ r.width.toInt ≤ 65535
  height_mem : 0 ≤ r.height.toInt ∧ r.height.toInt ≤ 65535

/-- Whether a header fits its wire form: no more rectangles than can be counted there, each of which
fits. -/
structure FrameHeader.FitsWire (h : FrameHeader) : Prop where
  length_le : h.rects.length ≤ 65535
  rects_fit : ∀ r ∈ h.rects, r.FitsHeader

/-- A signed number in range is kept by 16 bits. -/
theorem toInt32_toInt16_of_mem {a : Int32} (h : -32768 ≤ a.toInt ∧ a.toInt ≤ 32767) :
    a.toInt16.toInt32 = a := by
  apply Int32.toInt_inj.mp
  rw [Int16.toInt_toInt32, Int32.toInt_toInt16, Int.bmod_def]
  omega

/-- An unsigned number in range is kept by 16 bits. -/
theorem wide_low16_of_mem {a : Int32} (h : 0 ≤ a.toInt ∧ a.toInt ≤ 65535) :
    a.toInt16.toUInt16.toUInt32.toInt32 = a := by
  apply Int32.toInt_inj.mp
  rw [toInt_wide, toNat_low16]
  omega

/-- 16 bits are kept by an unsigned number. -/
theorem low16_wide (w : UInt16) : w.toUInt32.toInt32.toInt16.toUInt16 = w := by
  have hlt := w.toNat_lt
  have hlow := toNat_low16 w.toUInt32.toInt32
  rw [toInt_wide] at hlow
  apply UInt16.toNat_inj.mp
  omega

namespace FrameHeader

open Bytes

/-- A rectangle that fits is read back. -/
theorem rectAt_encodeRect {r : Rect} (hr : r.FitsHeader) (rest : List UInt8) :
    rectAt (encodeRect r ++ rest) = r := by
  obtain ⟨hx, hy, hw, hh⟩ : word16At (encodeRect r ++ rest) 0 = r.x.toInt16.toUInt16 ∧
      word16At (encodeRect r ++ rest) 2 = r.y.toInt16.toUInt16 ∧
      word16At (encodeRect r ++ rest) 4 = r.width.toInt16.toUInt16 ∧
      word16At (encodeRect r ++ rest) 6 = r.height.toInt16.toUInt16 := by
    dsimp only [encodeRect, ofUInt16, List.cons_append, List.nil_append]
    exact ⟨word16At_eq rfl rfl, word16At_eq rfl rfl, word16At_eq rfl rfl, word16At_eq rfl rfl⟩
  rw [rectAt, hx, hy, hw, hh, Int16.toInt16_toUInt16, Int16.toInt16_toUInt16,
    toInt32_toInt16_of_mem hr.x_mem, toInt32_toInt16_of_mem hr.y_mem,
    wide_low16_of_mem hr.width_mem, wide_low16_of_mem hr.height_mem]

/-- Rectangles that fit are read back. -/
theorem rectsAt_flatMap {rs : List Rect} (hrs : ∀ r ∈ rs, r.FitsHeader) :
    rectsAt rs.length (rs.flatMap encodeRect) = rs := by
  induction rs with
  | nil => rfl
  | cons r rs ih =>
    obtain ⟨hr, hrest⟩ := List.forall_mem_cons.mp hrs
    have hdrop : (encodeRect r ++ rs.flatMap encodeRect).drop rectLength =
        rs.flatMap encodeRect := rfl
    rw [List.flatMap_cons, List.length_cons, rectsAt, rectAt_encodeRect hr, hdrop, ih hrest]

/-- A rectangle that is read fits. -/
theorem fitsHeader_rectAt (bytes : List UInt8) : (rectAt bytes).FitsHeader := by
  have hsigned (w : UInt16) :
      -32768 ≤ w.toInt16.toInt32.toInt ∧ w.toInt16.toInt32.toInt ≤ 32767 := by
    have hle := w.toInt16.le_toInt
    have hlt := w.toInt16.toInt_lt
    rw [Int16.toInt_toInt32]
    omega
  have hunsigned (w : UInt16) :
      0 ≤ w.toUInt32.toInt32.toInt ∧ w.toUInt32.toInt32.toInt ≤ 65535 := by
    have hlt := w.toNat_lt
    rw [toInt_wide]
    omega
  exact ⟨hsigned _, hsigned _, hunsigned _, hunsigned _⟩

/-- Rectangles that are read fit. -/
theorem fitsHeader_of_mem_rectsAt {count : Nat} {bytes : List UInt8} {r : Rect}
    (hr : r ∈ rectsAt count bytes) : r.FitsHeader := by
  induction count generalizing bytes with
  | zero => cases hr
  | succ count ih =>
    rcases List.mem_cons.mp hr with rfl | hr
    · exact fitsHeader_rectAt bytes
    · exact ih hr

/-- A rectangle that is read has the bytes it was read from. -/
theorem encodeRect_rectAt {bytes : List UInt8} (hlength : rectLength ≤ bytes.length) :
    encodeRect (rectAt bytes) = bytes.take rectLength := by
  rw [take_eq_map_byteAt hlength]
  simp only [encodeRect, rectAt, Int16.toInt16_toInt32, UInt16.toUInt16_toInt16, low16_wide,
    ofUInt16_word16At]
  rfl

/-- Rectangles that are read have the bytes they were read from. -/
theorem flatMap_rectsAt {count : Nat} {bytes : List UInt8}
    (hlength : count * rectLength ≤ bytes.length) :
    (rectsAt count bytes).flatMap encodeRect = bytes.take (count * rectLength) := by
  induction count generalizing bytes with
  | zero => simp [rectsAt]
  | succ count ih =>
    rw [Nat.succ_mul] at hlength
    have hfirst : rectLength ≤ bytes.length := by omega
    have hrest : count * rectLength ≤ (bytes.drop rectLength).length := by
      rw [List.length_drop]
      omega
    rw [rectsAt, List.flatMap_cons, encodeRect_rectAt hfirst, ih hrest, Nat.succ_mul,
      Nat.add_comm, List.take_add]

/-- The header in bytes of a known format, its rectangles included. -/
def readAt (format : PixelFormat) (bytes : List UInt8) : FrameHeader where
  surfaceId := word32At bytes 0
  left := (word16At bytes 4).toInt16
  top := (word16At bytes 6).toInt16
  width := word16At bytes 8
  height := word16At bytes 10
  tileWidth := word16At bytes 12
  tileHeight := word16At bytes 14
  format
  frameId := if byteAt bytes 17 &&& 1 = 1 then some (word32At bytes 20) else none
  rects := rectsAt (word16At bytes 18).toNat (bytes.drop fixedLength)

/-- A header is read where the format is known and all the rectangles are there. -/
theorem decodeList_eq_ok_iff {bytes : List UInt8} {h : FrameHeader} :
    decodeList bytes = .ok h ↔ ∃ format, PixelFormat.ofCode? (byteAt bytes 16) = some format ∧
      lengthWith (word16At bytes 18).toNat ≤ bytes.length ∧ readAt format bytes = h := by
  unfold decodeList
  split
  · next hshort =>
    constructor
    · intro hd
      cases hd
    · rintro ⟨format, -, hlength, -⟩
      unfold lengthWith at hlength
      omega
  · split
    · next hformat =>
      rw [hformat]
      simp
    · next format hformat =>
      rw [hformat]
      dsimp only
      split
      · next hshort =>
        constructor
        · intro hd
          cases hd
        · rintro ⟨-, -, hlength, -⟩
          omega
      · next hlength =>
        constructor
        · intro hd
          exact ⟨format, rfl, Nat.le_of_not_lt hlength, Except.ok.inj hd⟩
        · rintro ⟨format', hformat', -, rfl⟩
          cases hformat'
          rfl

/-- A header that is read fits its wire form. -/
theorem fitsWire_readAt (format : PixelFormat) (bytes : List UInt8) :
    (readAt format bytes).FitsWire where
  length_le := by
    have hlt := (word16At bytes 18).toNat_lt
    show (rectsAt _ _).length ≤ 65535
    rw [length_rectsAt]
    omega
  rects_fit _ hr := fitsHeader_of_mem_rectsAt hr

/-- The parts of a header in its wire form. A missing frame id leaves its flag and its word clear. -/
structure IsLaidOut (h : FrameHeader) (bytes : List UInt8) : Prop where
  surfaceId : word32At bytes 0 = h.surfaceId
  left : word16At bytes 4 = h.left.toUInt16
  top : word16At bytes 6 = h.top.toUInt16
  width : word16At bytes 8 = h.width
  height : word16At bytes 10 = h.height
  tileWidth : word16At bytes 12 = h.tileWidth
  tileHeight : word16At bytes 14 = h.tileHeight
  format : byteAt bytes 16 = h.format.code
  flags : byteAt bytes 17 = if h.frameId.isSome then 1 else 0
  count : word16At bytes 18 = UInt16.ofNat h.rects.length
  frameId : word32At bytes 20 = h.frameId.getD 0
  rects : bytes.drop fixedLength = h.rects.flatMap encodeRect

/-- The wire form of a header holds its parts. -/
theorem isLaidOut_encodeList (h : FrameHeader) : h.IsLaidOut h.encodeList := by
  -- The fixed part byte by byte, so that a byte is found without appending the parts again.
  dsimp only [encodeList, ofUInt16, ofUInt32, List.cons_append, List.nil_append]
  exact ⟨word32At_eq rfl rfl rfl rfl, word16At_eq rfl rfl, word16At_eq rfl rfl,
    word16At_eq rfl rfl, word16At_eq rfl rfl, word16At_eq rfl rfl, word16At_eq rfl rfl, rfl, rfl,
    word16At_eq rfl rfl, word32At_eq rfl rfl rfl rfl, rfl⟩

/-- A frame id is read back. -/
theorem IsLaidOut.frameId_eq {h : FrameHeader} {bytes : List UInt8} (hlaid : h.IsLaidOut bytes) :
    (if byteAt bytes 17 &&& 1 = 1 then some (word32At bytes 20) else none) = h.frameId := by
  rw [hlaid.flags, hlaid.frameId]
  cases h.frameId with
  | none => rfl
  | some id => simp

/-- A header that fits its wire form is read back from it. -/
theorem decodeList_encodeList {h : FrameHeader} (hfits : h.FitsWire) :
    decodeList h.encodeList = .ok h := by
  have hlaid := isLaidOut_encodeList h
  have hcount : (word16At h.encodeList 18).toNat = h.rects.length := by
    rw [hlaid.count, UInt16.toNat_ofNat']
    have hle := hfits.length_le
    omega
  have hformat : PixelFormat.ofCode? (byteAt h.encodeList 16) = some h.format :=
    PixelFormat.ofCode?_eq_some_iff.mpr hlaid.format
  refine decodeList_eq_ok_iff.mpr ⟨h.format, hformat, ?_, ?_⟩
  · exact Nat.le_of_eq (by rw [length_encodeList, hcount])
  · rw [readAt, hlaid.surfaceId, hlaid.left, hlaid.top, hlaid.width, hlaid.height,
      hlaid.tileWidth, hlaid.tileHeight, hlaid.frameId_eq, hcount, hlaid.rects,
      rectsAt_flatMap hfits.rects_fit, Int16.toInt16_toUInt16, Int16.toInt16_toUInt16]

/-- What is kept of the byte at an offset by a header with the given flags: of the flags the one
that is used, of the frame id nothing unless it counts, and everything else. -/
def keptByte (flags : UInt8) (i : Nat) (byte : UInt8) : UInt8 :=
  if i = 17 then byte &&& 1
  else if 20 ≤ i ∧ i < 24 ∧ flags &&& 1 = 0 then 0
  else byte

/-- The flag that is used is set or clear. -/
theorem and_one_cases (flags : UInt8) : flags &&& 1 = 0 ∨ flags &&& 1 = 1 := by
  have hmod : (flags &&& 1).toNat = flags.toNat % 2 := by
    rw [UInt8.toNat_and]
    exact Nat.and_one_is_mod _
  rcases Nat.mod_two_eq_zero_or_one flags.toNat with h | h
  · exact .inl (UInt8.toNat_inj.mp (hmod.trans h))
  · exact .inr (UInt8.toNat_inj.mp (hmod.trans h))

/-- The flags and the frame id of a header that was read. -/
theorem flags_readAt (bytes : List UInt8) (format : PixelFormat) :
    (if (readAt format bytes).frameId.isSome then 1 else 0) = byteAt bytes 17 &&& 1 ∧
      ofUInt32 ((readAt format bytes).frameId.getD 0) =
        [20, 21, 22, 23].map fun i => keptByte (byteAt bytes 17) i (byteAt bytes i) := by
  unfold readAt
  rcases and_one_cases (byteAt bytes 17) with hflag | hflag
  · simp [hflag, keptByte, ofUInt32]
  · simp [hflag, keptByte, ofUInt32_word32At, ofUInt16_word16At]

/-- All is kept after the fixed part. -/
theorem mapIdx_keptByte_of_le (flags : UInt8) {start : Nat} (hstart : fixedLength ≤ start)
    (bytes : List UInt8) : bytes.mapIdx (fun i => keptByte flags (i + start)) = bytes := by
  apply List.ext_getElem
  · rw [List.length_mapIdx]
  · intro i _ _
    rw [List.getElem_mapIdx, keptByte]
    unfold fixedLength at hstart
    rw [if_neg (by omega), if_neg (by omega)]

/-- The wire form of a header that was read is the beginning of the bytes it was read from, but for
what is not kept. -/
theorem encodeList_readAt {format : PixelFormat} {bytes : List UInt8}
    (hformat : PixelFormat.ofCode? (byteAt bytes 16) = some format)
    (hlength : lengthWith (word16At bytes 18).toNat ≤ bytes.length) :
    (readAt format bytes).encodeList =
      (bytes.take (lengthWith (word16At bytes 18).toNat)).mapIdx (keptByte (byteAt bytes 17)) := by
  unfold lengthWith at hlength
  have hfixed : fixedLength ≤ bytes.length := by omega
  have hrest : (word16At bytes 18).toNat * rectLength ≤ (bytes.drop fixedLength).length := by
    rw [List.length_drop]
    omega
  have hcode : format.code = byteAt bytes 16 := (PixelFormat.ofCode?_eq_some_iff.mp hformat).symm
  have hcount : UInt16.ofNat (readAt format bytes).rects.length = word16At bytes 18 := by
    show UInt16.ofNat (rectsAt _ _).length = _
    rw [length_rectsAt, UInt16.ofNat_toNat]
  obtain ⟨hflag, hframe⟩ := flags_readAt bytes format
  have hstart : (bytes.take fixedLength).mapIdx (keptByte (byteAt bytes 17)) =
      (List.range fixedLength).map fun i => keptByte (byteAt bytes 17) i (byteAt bytes i) := by
    rw [take_eq_map_byteAt hfixed]
    apply List.ext_getElem <;> simp
  rw [encodeList, hcount, hflag, hframe]
  have hrects : (readAt format bytes).rects.flatMap encodeRect =
      (bytes.drop fixedLength).take ((word16At bytes 18).toNat * rectLength) :=
    flatMap_rectsAt hrest
  rw [hrects, lengthWith, List.take_add, List.mapIdx_append, hstart, List.length_take,
    Nat.min_eq_left hfixed, mapIdx_keptByte_of_le _ (Nat.le_refl _)]
  refine congrArg (· ++ _) ?_
  simp only [readAt, hcode, ofUInt32_word32At, ofUInt16_word16At, UInt16.toUInt16_toInt16]
  rfl

/-- What is read from bytes. -/
theorem decodeList_eq_ok {bytes : List UInt8} {h : FrameHeader} (hd : decodeList bytes = .ok h) :
    h.FitsWire ∧ h.encodeList.length ≤ bytes.length ∧ h.encodeList =
      (bytes.take h.encodeList.length).mapIdx (keptByte (byteAt bytes 17)) := by
  obtain ⟨format, hformat, hlength, rfl⟩ := decodeList_eq_ok_iff.mp hd
  have hcount : (readAt format bytes).encodeList.length =
      lengthWith (word16At bytes 18).toNat := by
    rw [length_encodeList]
    exact congrArg lengthWith (length_rectsAt _ _)
  rw [hcount]
  exact ⟨fitsWire_readAt format bytes, hlength, encodeList_readAt hformat hlength⟩

/-- A header is read back from its wire form exactly if it fits there, and a header that was read
from bytes has their beginning as its wire form, but for the flags that are not used and a frame id
that does not count. -/
theorem roundTrips (h : FrameHeader) :
    (decode h.encode = .ok h ↔ h.FitsWire) ∧
      ∀ bytes, decode bytes = .ok h →
        decode h.encode = .ok h ∧ h.encode.size ≤ bytes.size ∧
          toList h.encode =
            ((toList bytes).take h.encode.size).mapIdx (keptByte (byteAt (toList bytes) 17)) := by
  have hencode : toList h.encode = h.encodeList := List.toList_data_toByteArray
  have hsize : h.encode.size = h.encodeList.length := List.size_toByteArray
  have hback : h.FitsWire → decode h.encode = .ok h := by
    intro hfits
    rw [decode, hencode]
    exact decodeList_encodeList hfits
  refine ⟨⟨fun hd => (decodeList_eq_ok hd).1, hback⟩, fun bytes hd => ?_⟩
  obtain ⟨hfits, hle, hkept⟩ := decodeList_eq_ok hd
  rw [hsize, hencode]
  exact ⟨hback hfits, hle, hkept⟩

/-- Flags without meaning, a frame id that does not count and bytes after the header are lost. -/
example :
    (decode ⟨#[3, 0, 0, 0, 240, 255, 32, 0, 64, 0, 48, 0, 128, 0, 96, 0, 2, 254, 0, 0, 77, 0, 0, 0,
      9]⟩).toOption.map encode =
    some ⟨#[3, 0, 0, 0, 240, 255, 32, 0, 64, 0, 48, 0, 128, 0, 96, 0, 2, 0, 0, 0, 0, 0, 0, 0]⟩ := by
  decide +kernel

end FrameHeader

end FrameEncoder
