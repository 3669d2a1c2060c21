import FrameEncoder.Bytes
import FrameEncoder.Error
import FrameEncoder.Rect

/-!
# Frame headers

The header of a graphics command: 24 fixed bytes and 8 bytes a damage rectangle, all words
little-endian.

Bytes 0 to 15 hold the surface, the origin, the region size and the tile size; byte 16 is the
format code; bit 0 of byte 17 tells whether the frame id in bytes 20 to 23 counts; bytes 18 and
19 hold the number of rectangles. Origins are signed, sizes are not.
-/

namespace FrameEncoder

/-- The geometry of one graphics command. -/
structure FrameHeader where
  surfaceId : UInt32
  left : Int16
  top : Int16
  width : UInt16
  height : UInt16
  tileWidth : UInt16
  tileHeight : UInt16
  format : PixelFormat
  frameId : Option UInt32
  rects : List Rect
deriving DecidableEq, Repr

namespace FrameHeader

open Bytes

/-- The size of the fixed part. -/
def fixedLength : Nat := 24

/-- The size of a rectangle. -/
def rectLength : Nat := 8

/-- The bytes a header with `count` rectangles needs. -/
def lengthWith (count : Nat) : Nat := fixedLength + count * rectLength

/-- The bytes of a rectangle, each field cut to its low 16 bits. -/
def encodeRect (r : Rect) : List UInt8 :=
  ofUInt16 r.x.toInt16.toUInt16 ++ ofUInt16 r.y.toInt16.toUInt16 ++
    ofUInt16 r.width.toInt16.toUInt16 ++ ofUInt16 r.height.toInt16.toUInt16

/-- The bytes of a header; the number of rectangles is cut to its low 16 bits. -/
def encodeList (h : FrameHeader) : List UInt8 :=
  ofUInt32 h.surfaceId ++ ofUInt16 h.left.toUInt16 ++ ofUInt16 h.top.toUInt16 ++
    ofUInt16 h.width ++ ofUInt16 h.height ++ ofUInt16 h.tileWidth ++ ofUInt16 h.tileHeight ++
    [h.format.code, if h.frameId.isSome then 1 else 0] ++
    ofUInt16 (UInt16.ofNat h.rects.length) ++ ofUInt32 (h.frameId.getD 0) ++
    h.rects.flatMap encodeRect

/-- The rectangle in the first eight bytes: a signed corner and an unsigned size. -/
def rectAt (bytes : List UInt8) : Rect where
  x := (word16At bytes 0).toInt16.toInt32
  y := (word16At bytes 2).toInt16.toInt32
  width := (word16At bytes 4).toUInt32.toInt32
  height := (word16At bytes 6).toUInt32.toInt32

/-- The first `count` rectangles of a byte list. -/
def rectsAt : Nat → List UInt8 → List Rect
  | 0, _ => []
  | count + 1, bytes => rectAt bytes :: rectsAt count (bytes.drop rectLength)

/-- Read a header: its fixed part, a known format and all its rectangles have to be there, in
this order. Bytes after the rectangles are ignored. -/
def decodeList (bytes : List UInt8) : Except CommandError FrameHeader :=
  if bytes.length < fixedLength then
    .error (.headerTooShort fixedLength bytes.length)
  else match PixelFormat.ofCode? (byteAt bytes 16) with
    | none => .error (.unknownFormat (byteAt bytes 16))
    | some format =>
      let count := (word16At bytes 18).toNat
      if bytes.length < lengthWith count then
        .error (.headerTooShort (lengthWith count) bytes.length)
      else .ok {
        surfaceId := word32At bytes 0
        left := (word16At bytes 4).toInt16
        top := (word16At bytes 6).toInt16
        width := word16At bytes 8
        height := word16At bytes 10
        tileWidth := word16At bytes 12
        tileHeight := word16At bytes 14
        format
        frameId := if byteAt bytes 17 &&& 1 = 1 then some (word32At bytes 20) else none
        rects := rectsAt count (bytes.drop fixedLength) }

/-- The wire form of a header. -/
def encode (h : FrameHeader) : ByteArray := h.encodeList.toByteArray

/-- The header a buffer starts with. -/
def decode (bytes : ByteArray) : Except CommandError FrameHeader := decodeList (toList bytes)

/-- As many rectangles are read as were asked for. -/
theorem length_rectsAt (count : Nat) (bytes : List UInt8) :
    (rectsAt count bytes).length = count := by
  induction count generalizing bytes with
  | zero => rfl
  | succ count ih => simp [rectsAt, ih]

/-- A header takes the fixed part and eight bytes a rectangle. -/
theorem length_encodeList (h : FrameHeader) :
    h.encodeList.length = lengthWith h.rects.length := by
  have hr : ∀ rs : List Rect, (rs.flatMap encodeRect).length = rs.length * rectLength := by
    intro rs
    induction rs with
    | nil => rfl
    | cons r rs ih =>
      simp only [List.flatMap_cons, List.length_append, ih, List.length_cons, Nat.succ_mul]
      simp [encodeRect, ofUInt16, rectLength, Nat.add_comm]
  simp [encodeList, lengthWith, fixedLength, ofUInt16, ofUInt32, hr]
  omega

end FrameHeader

end FrameEncoder
