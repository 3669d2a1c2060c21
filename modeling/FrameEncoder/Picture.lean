import FrameEncoder.Bytes

/-!
# Planar pictures

The 4:2:0 pictures encoders take: a luma plane and two chroma planes of half its width and
height, either one after the other or interleaved.
-/

namespace FrameEncoder

/-- How the chroma of a picture is laid out. -/
inductive PlaneLayout where
  /-- All of U, then all of V. -/
  | i420
  /-- U and V in turn. -/
  | nv12
deriving DecidableEq, Repr

namespace PlaneLayout

/-- The name of a layout. -/
def name : PlaneLayout → String
  | i420 => "I420"
  | nv12 => "NV12"

end PlaneLayout

/-- A picture handed to an encoder. Its data may be longer than its planes. -/
structure Picture where
  width : Nat
  height : Nat
  layout : PlaneLayout
  data : ByteArray

namespace Picture

/-- The luma samples, row by row. -/
def luma (p : Picture) : ByteArray := Bytes.window p.data 0 (p.width * p.height)

/-- The chroma samples: U and V, or both interleaved and nothing. -/
def chroma (p : Picture) : ByteArray × ByteArray :=
  let luma := p.width * p.height
  match p.layout with
  | .i420 =>
    (Bytes.window p.data luma (luma / 4), Bytes.window p.data (luma + luma / 4) (luma / 4))
  | .nv12 => (Bytes.window p.data luma (luma / 2), .empty)

end Picture

end FrameEncoder
