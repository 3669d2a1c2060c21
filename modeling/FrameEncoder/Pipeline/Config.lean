import FrameEncoder.ConnectionClass
import FrameEncoder.Pipeline.Flow

/-!
# Pipeline settings
-/

namespace FrameEncoder

/-- The settings of a pipeline. -/
structure PipelineConfig where
  /-- The size of the destination each command is encoded into. -/
  maxCompressedBytes : Nat
  /-- The zeroed bytes in front of every payload. -/
  padBytes : Nat
  /-- The most bytes of a payload; longer output is split. -/
  outputChunkBytes : Option Nat
  maxFramesInFlight : UInt32
  /-- The client's class, which picks the tuning of the encoder. -/
  connection : ConnectionClass
deriving DecidableEq, Repr

instance : Inhabited PipelineConfig where
  default := {
    maxCompressedBytes := 4 * 1024 * 1024
    padBytes := 0
    outputChunkBytes := none
    maxFramesInFlight := Flow.defaultMaxInFlight
    connection := .autodetect }

end FrameEncoder
