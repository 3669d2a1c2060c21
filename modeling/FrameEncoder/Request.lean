import FrameEncoder.Bytes
import FrameEncoder.ConnectionClass
import FrameEncoder.Error
import FrameEncoder.Rect

/-!
# Encode requests

One call to an encoder: the pixels of a tile, the damaged rectangles, the region they belong to
and the class of connection to tune for.
-/

namespace FrameEncoder

/-- One encode call. -/
structure EncodeRequest where
  /-- Selects the slot of the encoder. -/
  channelId : UInt32
  left : Int32
  top : Int32
  width : Int32
  height : Int32
  tileWidth : Nat
  tileHeight : Nat
  format : PixelFormat
  /-- The pixels; no bytes at all only prepare the encoder. -/
  data : ByteArray
  rects : List Rect
  connection : ConnectionClass

namespace EncodeRequest

/-- Check that the pixels, if there are any, are in the format encoders take and fill the tile. -/
def validate (r : EncodeRequest) : Except InputFault Unit :=
  if r.data.size = 0 then .ok ()
  else if r.format ≠ .nv12 then .error (.format r.format)
  else
    let needed := PixelFormat.nv12.tileLength r.tileWidth r.tileHeight
    if r.data.size < needed then
      .error (.tileTooShort r.tileWidth r.tileHeight needed r.data.size)
    else .ok ()

/-- The class a request is tuned for. -/
def tuningClass (r : EncodeRequest) : ConnectionClass := .clampForEncode r.connection.wire

/-- A valid request has no pixels or fills its tile in the format encoders take. -/
theorem validate_eq_ok_iff (r : EncodeRequest) :
    r.validate = .ok () ↔ r.data.size = 0 ∨ r.format = .nv12 ∧
      PixelFormat.nv12.tileLength r.tileWidth r.tileHeight ≤ r.data.size := by
  grind [validate]

end EncodeRequest

end FrameEncoder
