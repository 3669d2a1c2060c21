import FrameEncoder.Error
import FrameEncoder.Pool

/-!
# Encode results

What the encode thread publishes for a command: blocks of coded output, or one empty block that
tells why there is none.
-/

namespace FrameEncoder

/-- How the command of a result ended. -/
inductive EncodeStatus where
  | encoded
  | skipped
  | failed (error : BackendError)
deriving DecidableEq, Repr

/-- What kind of command a result answers. -/
structure ResultFlags where
  /-- The command came over the graphics channel. -/
  gfx : Bool
  /-- The frame id has a meaning. -/
  frameId : Bool
deriving DecidableEq, Repr

/-- The flags as bits. -/
def ResultFlags.bits (f : ResultFlags) : Nat :=
  (if f.gfx then 1 else 0) + (if f.frameId then 2 else 0)

/-- One block of coded output, with room in front for the framing of a transport. -/
structure EncodeResult where
  /-- The padding and the payload. -/
  data : ByteArray
  padBytes : Nat
  /-- The number of the command. -/
  seq : Nat
  x : Int32
  y : Int32
  cx : Int32
  cy : Int32
  flags : ResultFlags
  frameId : Option UInt32
  /-- The final result of its command. -/
  last : Bool
  /-- The result continues the one before it. -/
  continuation : Bool
  status : EncodeStatus
  encodeFlags : ContextFlags
deriving DecidableEq

namespace EncodeResult

/-- The coded bytes without the padding. -/
def payload (r : EncodeResult) : ByteArray := r.data.extract (min r.padBytes r.data.size) r.data.size

/-- Whether the command was encoded. -/
def isEncoded (r : EncodeResult) : Bool := r.status = .encoded

/-- The frame that is complete with this result, if any. -/
def completedFrame (r : EncodeResult) : Option UInt32 := if r.last then r.frameId else none

end EncodeResult

end FrameEncoder
