import FrameEncoder.PixelFormat

/-!
# Errors

The ways in which a command, an encode call or a pipeline call can fail, each with its cause,
and the one text every error is reported with.
-/

namespace FrameEncoder

/-- A command that describes no surface update. -/
inductive CommandError where
  /-- The header ends before its fixed part or its rectangles do. -/
  | headerTooShort (needed actual : Nat)
  /-- The header names no known pixel format. -/
  | unknownFormat (code : UInt8)
  /-- The header names damage, but there are no pixels. -/
  | missingPayload
  /-- There are pixels, but too few for the tile. -/
  | pixelDataTooShort (needed actual : Nat)
deriving DecidableEq, Repr

/-- The text of a command error. -/
def CommandError.message : CommandError → String
  | headerTooShort needed actual =>
    s!"gfx header too short: need {needed} bytes, got {actual}"
  | unknownFormat code =>
    "unknown pixel format 0x" ++ String.ofList (Nat.toDigits 16 code.toNat)
  | missingPayload => "gfx command has no pixel payload"
  | pixelDataTooShort needed actual =>
    s!"pixel data too short: need {needed} bytes, got {actual}"

/-- A codec library that did not do what it was asked. -/
inductive EngineError where
  /-- No such library is part of the program. -/
  | unlinked (engine : String)
  /-- The library reports an error in its own words. -/
  | library (text : String)
deriving DecidableEq, Repr

/-- The text of an engine error. -/
def EngineError.message : EngineError → String
  | unlinked engine => engine ++ " codec library is not linked into this build"
  | library text => text

/-- Why an encode request was refused. -/
inductive InputFault where
  /-- The pixels are in a format encoders do not take. -/
  | format (actual : PixelFormat)
  /-- There are fewer bytes than the tile needs. -/
  | tileTooShort (width height needed actual : Nat)
  /-- The command describes no surface update. -/
  | command (error : CommandError)
  /-- A backend gives a reason of its own. -/
  | reported (text : String)
deriving DecidableEq, Repr

/-- The text of an input fault. -/
def InputFault.message : InputFault → String
  | format actual => "expected NV12 pixels, got " ++ actual.name
  | tileTooShort width height needed actual =>
    s!"{width}x{height} NV12 tile needs {needed} bytes, got {actual}"
  | command error => error.message
  | reported text => text

/-- Why an encode call produced no bitstream. -/
inductive EncodeFault where
  /-- The codec library failed. -/
  | engine (error : EngineError)
  /-- The codec library returned a frame of no bytes. -/
  | emptyPayload
deriving DecidableEq, Repr

/-- The text of an encode fault. -/
def EncodeFault.message : EncodeFault → String
  | engine error => error.message
  | emptyPayload => "empty payload"

/-- The ways an encode call can fail. -/
inductive BackendError where
  /-- No encoder context could be opened. -/
  | contextCreate (cause : EngineError)
  /-- There is no memory for the scratch picture. -/
  | scratchAlloc (bytes : Nat)
  /-- The codec library produced no bitstream. -/
  | encodeFailed (cause : EncodeFault)
  /-- Rate control dropped the frame. -/
  | frameSkipped
  /-- The bitstream is larger than the destination. -/
  | overflow (needed capacity : Nat)
  /-- The request contradicts itself. -/
  | invalidInput (cause : InputFault)
deriving DecidableEq, Repr

/-- The text of a backend error. -/
def BackendError.message : BackendError → String
  | contextCreate cause => "failed to create encoder context: " ++ cause.message
  | scratchAlloc bytes => s!"failed to allocate {bytes} byte scratch buffer"
  | encodeFailed cause => "encode failed: " ++ cause.message
  | frameSkipped => "frame skipped by rate control"
  | overflow needed capacity => s!"output overflow: need {needed} bytes, have {capacity}"
  | invalidInput cause => "invalid input: " ++ cause.message

/-- Pipeline calls that the pipeline's lifecycle does not allow or that its thread defeats. -/
inductive PipelineError where
  | alreadyStarted
  /-- The encode thread is gone; no more commands are taken. -/
  | shutDown
  /-- The system gave no thread, for the reason in its own words. -/
  | spawn (reason : String)
  /-- The encode thread ended by a crash. -/
  | threadCrashed
deriving DecidableEq, Repr

/-- The text of a pipeline error. -/
def PipelineError.message : PipelineError → String
  | alreadyStarted => "pipeline already started"
  | shutDown => "pipeline is shut down"
  | spawn reason => "failed to spawn encode thread: " ++ reason
  | threadCrashed => "encode thread panicked"

/-- An error of any layer, for callers that do not care which layer failed. -/
inductive EncoderError where
  | backend (error : BackendError)
  | command (error : CommandError)
  | pipeline (error : PipelineError)
  | io (reason : String)
deriving DecidableEq, Repr

/-- The text of an error, which names its layer first. -/
def EncoderError.message : EncoderError → String
  | backend error => "codec backend: " ++ error.message
  | command error => "encode command: " ++ error.message
  | pipeline error => "pipeline: " ++ error.message
  | io reason => "i/o error: " ++ reason

end FrameEncoder
