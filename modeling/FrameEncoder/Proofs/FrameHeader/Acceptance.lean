import FrameEncoder.Proofs.FrameHeader.RoundTrip
import Mathlib.Data.List.Infix

/-!
# Which bytes are a header

Bytes are a header if they have its fixed part, a known format code and all the rectangles they
declare. All others are refused for the first of the three that is missing. What follows the
rectangles does not matter.

So a header that is cut short is refused at every length, provided that its rectangles can be
counted. Their number is written with 16 bits: a longer list declares too few, and is taken for a
shorter one when it is cut there.
-/

namespace FrameEncoder

namespace Bytes

variable {start bytes : List UInt8} {i : Nat}

/-- The first bytes of a list are those of the whole list. -/
theorem byteAt_eq_of_isPrefix (h : start <+: bytes) (hi : i < start.length) :
    byteAt start i = byteAt bytes i := by
  obtain ⟨rest, rfl⟩ := h
  rw [byteAt, byteAt, List.getElem?_append_left hi]

/-- The first 16-bit words of a list are those of the whole list. -/
theorem word16At_eq_of_isPrefix (h : start <+: bytes) (hi : i + 1 < start.length) :
    word16At start i = word16At bytes i := by
  rw [word16At, word16At, byteAt_eq_of_isPrefix h (by omega), byteAt_eq_of_isPrefix h hi]

/-- The first 32-bit words of a list are those of the whole list. -/
theorem word32At_eq_of_isPrefix (h : start <+: bytes) (hi : i + 3 < start.length) :
    word32At start i = word32At bytes i := by
  rw [word32At, word32At, word16At_eq_of_isPrefix h (by omega), word16At_eq_of_isPrefix h hi]

end Bytes

namespace FrameHeader

open Bytes

variable {start bytes : List UInt8}

/-- The first rectangle of a list of bytes is that of the whole list. -/
theorem rectAt_eq_of_isPrefix (h : start <+: bytes) (hlength : rectLength ≤ start.length) :
    rectAt start = rectAt bytes := by
  unfold rectLength at hlength
  simp only [rectAt]
  rw [word16At_eq_of_isPrefix h (by omega), word16At_eq_of_isPrefix h (by omega),
    word16At_eq_of_isPrefix h (by omega), word16At_eq_of_isPrefix h (by omega)]

/-- The first rectangles of a list of bytes are those of the whole list. -/
theorem rectsAt_eq_of_isPrefix {count : Nat} (h : start <+: bytes)
    (hlength : count * rectLength ≤ start.length) : rectsAt count start = rectsAt count bytes := by
  induction count generalizing start bytes with
  | zero => rfl
  | succ count ih =>
    rw [Nat.succ_mul] at hlength
    have hrest : count * rectLength ≤ (start.drop rectLength).length := by
      rw [List.length_drop]
      omega
    rw [rectsAt, rectsAt, rectAt_eq_of_isPrefix h (by omega), ih (h.drop rectLength) hrest]

/-- A header in the first bytes of a list is that of the whole list. -/
theorem readAt_eq_of_isPrefix (format : PixelFormat) (h : start <+: bytes)
    (hlength : lengthWith (word16At start 18).toNat ≤ start.length) :
    readAt format start = readAt format bytes := by
  unfold lengthWith at hlength
  have hfixed : 24 ≤ start.length := Nat.le_trans (Nat.le_add_right _ _) hlength
  have hrest : (word16At start 18).toNat * rectLength ≤ (start.drop fixedLength).length := by
    rw [List.length_drop]
    omega
  simp only [readAt]
  rw [rectsAt_eq_of_isPrefix (h.drop fixedLength) hrest, word32At_eq_of_isPrefix h (by omega),
    word16At_eq_of_isPrefix h (by omega), word16At_eq_of_isPrefix h (by omega),
    word16At_eq_of_isPrefix h (by omega), word16At_eq_of_isPrefix h (by omega),
    word16At_eq_of_isPrefix h (by omega), word16At_eq_of_isPrefix h (by omega),
    byteAt_eq_of_isPrefix h (by omega), word32At_eq_of_isPrefix h (by omega),
    word16At_eq_of_isPrefix h (by omega)]

/-- A header that is read from the first bytes of a list is read from the whole list. -/
theorem decodeList_of_isPrefix {header : FrameHeader} (h : start <+: bytes)
    (hd : decodeList start = .ok header) : decodeList bytes = .ok header := by
  obtain ⟨format, hformat, hlength, rfl⟩ := decodeList_eq_ok_iff.mp hd
  have hfixed : 24 ≤ start.length := by
    unfold lengthWith fixedLength at hlength
    omega
  have hcount : word16At start 18 = word16At bytes 18 := word16At_eq_of_isPrefix h (by omega)
  refine decodeList_eq_ok_iff.mpr ⟨format, ?_, ?_, (readAt_eq_of_isPrefix format h hlength).symm⟩
  · rw [← byteAt_eq_of_isPrefix h (by omega)]
    exact hformat
  · rw [← hcount]
    exact Nat.le_trans hlength h.length_le

/-- A header is refused for its format exactly if its fixed part is there and no format has its
code. -/
theorem decodeList_eq_unknownFormat_iff {code : UInt8} :
    decodeList bytes = .error (.unknownFormat code) ↔
      fixedLength ≤ bytes.length ∧ PixelFormat.ofCode? (byteAt bytes 16) = none ∧
        code = byteAt bytes 16 := by
  unfold decodeList
  split
  · next hshort => simp [Nat.not_le.mpr hshort]
  · next hfixed =>
    split
    · next hformat => simp [Nat.not_lt.mp hfixed, hformat, eq_comm]
    · next hformat =>
      rw [hformat]
      dsimp only
      split <;> simp

/-- A header is refused for its length exactly if its fixed part is missing, or if its format is
known and some of its rectangles are missing. -/
theorem decodeList_eq_headerTooShort_iff {needed actual : Nat} :
    decodeList bytes = .error (.headerTooShort needed actual) ↔
      actual = bytes.length ∧
        (bytes.length < fixedLength ∧ needed = fixedLength ∨
          (fixedLength ≤ bytes.length ∧ (PixelFormat.ofCode? (byteAt bytes 16)).isSome) ∧
            bytes.length < lengthWith (word16At bytes 18).toNat ∧
              needed = lengthWith (word16At bytes 18).toNat) := by
  unfold decodeList
  split
  · next hshort =>
    simp only [Except.error.injEq, CommandError.headerTooShort.injEq]
    omega
  · next hfixed =>
    split
    · next hformat => simp [hformat, hfixed]
    · next hformat =>
      rw [hformat]
      dsimp only
      split
      · simp only [Except.error.injEq, CommandError.headerTooShort.injEq, Option.isSome_some,
          and_true]
        omega
      · simp only [reduceCtorEq, Option.isSome_some, and_true, false_iff]
        omega

/-- The bytes a header needs for the rectangles it declares in bytes 18 and 19, low byte first. -/
def declaredLength (bytes : List UInt8) : Nat :=
  24 + 8 * ((byteAt bytes 18).toNat + 256 * (byteAt bytes 19).toNat)

/-- Whether byte 16 is the code of a format. -/
def HasFormat (bytes : List UInt8) : Prop := ∃ format : PixelFormat, byteAt bytes 16 = format.code

/-- The rectangles that are read are those that are declared. -/
theorem lengthWith_word16At (bytes : List UInt8) :
    lengthWith (word16At bytes 18).toNat = declaredLength bytes := by
  rw [toNat_word16At, lengthWith, declaredLength, Nat.mul_comm]
  rfl

/-- A code is known exactly if a format can be read from it. -/
theorem hasFormat_iff : HasFormat bytes ↔ (PixelFormat.ofCode? (byteAt bytes 16)).isSome := by
  rw [Option.isSome_iff_exists]
  exact exists_congr fun format => PixelFormat.ofCode?_eq_some_iff.symm

/-- Bytes are a header exactly if their fixed part, a known format and the declared rectangles are
there. -/
theorem exists_decodeList_iff :
    (∃ header, decodeList bytes = .ok header) ↔
      24 ≤ bytes.length ∧ HasFormat bytes ∧ declaredLength bytes ≤ bytes.length := by
  rw [hasFormat_iff, Option.isSome_iff_exists, ← lengthWith_word16At]
  constructor
  · rintro ⟨header, hd⟩
    obtain ⟨format, hformat, hlength, -⟩ := decodeList_eq_ok_iff.mp hd
    have hfixed : 24 ≤ lengthWith (word16At bytes 18).toNat := Nat.le_add_right _ _
    exact ⟨Nat.le_trans hfixed hlength, ⟨format, hformat⟩, hlength⟩
  · rintro ⟨-, ⟨format, hformat⟩, hlength⟩
    exact ⟨_, decodeList_eq_ok_iff.mpr ⟨format, hformat, hlength, rfl⟩⟩

/-- The rectangles a wire form declares are as many as the header has, up to multiples of 65536. -/
theorem declaredLength_encodeList (h : FrameHeader) :
    declaredLength h.encodeList = 24 + 8 * (h.rects.length % 65536) := by
  rw [← lengthWith_word16At, (isLaidOut_encodeList h).count, UInt16.toNat_ofNat', lengthWith,
    Nat.mul_comm]
  rfl

/-- A wire form names its format. -/
theorem hasFormat_encodeList (h : FrameHeader) : HasFormat h.encodeList :=
  ⟨h.format, (isLaidOut_encodeList h).format⟩

/-- What a header of `length` bytes needs, for one who has only the first `k`: as long as the fixed
part is not there, no more than that. -/
def neededAfter (k length : Nat) : Nat := if k < 24 then 24 else length

/-- A header cut before the rectangles it declares is refused. -/
theorem decodeList_take (h : FrameHeader) {k : Nat} (hk : k < declaredLength h.encodeList)
    (hlength : k ≤ h.encodeList.length) :
    decodeList (h.encodeList.take k) =
      .error (.headerTooShort (neededAfter k (declaredLength h.encodeList)) k) := by
  have hcut : (h.encodeList.take k).length = k := by
    rw [List.length_take, Nat.min_eq_left hlength]
  have hstart : h.encodeList.take k <+: h.encodeList := List.take_prefix k _
  rw [decodeList_eq_headerTooShort_iff, hcut]
  refine ⟨rfl, ?_⟩
  by_cases hfixed : k < 24
  · rw [neededAfter, if_pos hfixed]
    exact .inl ⟨hfixed, rfl⟩
  · have hcode : byteAt (h.encodeList.take k) 16 = byteAt h.encodeList 16 :=
      byteAt_eq_of_isPrefix hstart (by omega)
    have hcount : word16At (h.encodeList.take k) 18 = word16At h.encodeList 18 :=
      word16At_eq_of_isPrefix hstart (by omega)
    rw [hcode, hcount, lengthWith_word16At, ← hasFormat_iff, neededAfter, if_neg hfixed]
    exact .inr ⟨⟨Nat.not_lt.mp hfixed, hasFormat_encodeList h⟩, hk, rfl⟩

/-- A header that is cut is refused at every length exactly if its rectangles can be counted. -/
theorem decodeList_take_iff (h : FrameHeader) :
    (∀ k < h.encodeList.length, decodeList (h.encodeList.take k) =
      .error (.headerTooShort (neededAfter k h.encodeList.length) k)) ↔
      h.rects.length ≤ 65535 := by
  have hlength : h.encodeList.length = 24 + 8 * h.rects.length := by
    rw [length_encodeList, lengthWith, Nat.mul_comm]
    rfl
  have hdeclared := declaredLength_encodeList h
  constructor
  · intro hall
    -- Cut behind the rectangles it declares, a header with more of them is read.
    refine Nat.le_of_not_lt fun hmany => ?_
    have hlt : declaredLength h.encodeList < h.encodeList.length := by omega
    have hcut : (h.encodeList.take (declaredLength h.encodeList)).length =
        declaredLength h.encodeList := by
      rw [List.length_take, Nat.min_eq_left (Nat.le_of_lt hlt)]
    have hcount : word16At (h.encodeList.take (declaredLength h.encodeList)) 18 =
        word16At h.encodeList 18 := by
      apply word16At_eq_of_isPrefix
      · exact List.take_prefix _ _
      · omega
    have hrefused := hall _ hlt
    rw [decodeList_eq_headerTooShort_iff, hcut, hcount, lengthWith_word16At] at hrefused
    unfold fixedLength at hrefused
    omega
  · intro hcount k hk
    have hwhole : declaredLength h.encodeList = h.encodeList.length := by omega
    rw [← hwhole] at hk ⊢
    exact decodeList_take h hk (by omega)

/-- Bytes are a header exactly if they have the fixed part, a known format code and the rectangles
they declare, and are otherwise refused for the first of these that is missing; bytes after a header
are ignored. A header that is cut is refused at every length, with the length that is left, exactly
if it has at most 65535 rectangles, as every header has that fits its wire form. -/
theorem judges_bytes :
    (∀ bytes : ByteArray,
      ((∃ header, decode bytes = .ok header) ↔
        24 ≤ bytes.size ∧ HasFormat (toList bytes) ∧ declaredLength (toList bytes) ≤ bytes.size) ∧
      (∀ code, decode bytes = .error (.unknownFormat code) ↔
        24 ≤ bytes.size ∧ ¬ HasFormat (toList bytes) ∧ code = byteAt (toList bytes) 16) ∧
      (∀ needed actual, decode bytes = .error (.headerTooShort needed actual) ↔
        actual = bytes.size ∧
          (bytes.size < 24 ∧ needed = 24 ∨
            (24 ≤ bytes.size ∧ HasFormat (toList bytes)) ∧
              bytes.size < declaredLength (toList bytes) ∧
                needed = declaredLength (toList bytes))) ∧
      ∀ header, decode bytes = .ok header → ∀ rest, decode (bytes ++ rest) = .ok header) ∧
    ∀ h : FrameHeader,
      (∀ k < h.encode.size, decode (window h.encode 0 k) =
        .error (.headerTooShort (neededAfter k h.encode.size) k)) ↔ h.rects.length ≤ 65535 := by
  refine ⟨fun bytes => ⟨exists_decodeList_iff, fun code => ?_, fun needed actual => ?_, ?_⟩,
    fun h => ?_⟩
  · rw [decode, decodeList_eq_unknownFormat_iff, hasFormat_iff, Option.not_isSome_iff_eq_none]
    rfl
  · rw [decode, decodeList_eq_headerTooShort_iff, hasFormat_iff, lengthWith_word16At]
    rfl
  · intro header hd rest
    rw [decode, toList_append]
    exact decodeList_of_isPrefix (List.prefix_append _ _) hd
  · have hencode : toList h.encode = h.encodeList := List.toList_data_toByteArray
    have hsize : h.encode.size = h.encodeList.length := List.size_toByteArray
    simp only [decode, toList_window, hencode, hsize, List.drop_zero]
    exact decodeList_take_iff h

end FrameHeader

end FrameEncoder
