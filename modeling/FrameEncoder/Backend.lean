import FrameEncoder.Pool
import FrameEncoder.Request
import FrameEncoder.Tuning

/-!
# Encoder backends

The contract between the pipeline and an encoder. A backend works on a state of its own, so one
contract serves the H.264 encoders and any stand-in.
-/

namespace FrameEncoder

/-- A successful encode call. -/
structure EncodeOutcome where
  /-- The bytes of the destination the backend claims to have written. -/
  bytesWritten : Nat
  flags : ContextFlags
deriving DecidableEq, Repr

/-- What an encode call came to. -/
inductive EncodeReply where
  | done (outcome : EncodeOutcome)
  | failed (error : BackendError)
  /-- The encoder crashed; the thread that called it is lost. -/
  | crashed
deriving DecidableEq

/-- An encoder with a state `β`. -/
structure Backend (β : Type) where
  encoder : H264Encoder
  /-- Whether the encoder works at all. -/
  selfTest : β → Bool × β
  /-- Encode a request into a destination of fixed size. -/
  encode : β → EncodeRequest → ByteArray → EncodeReply × ByteArray × β
  /-- Destroy every context. -/
  release : β → β

/-- How a backend is shown to developers. -/
def Backend.debug {β : Type} (B : Backend β) : String := "CodecBackend(" ++ B.encoder.name ++ ")"

end FrameEncoder
