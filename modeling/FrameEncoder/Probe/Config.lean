import FrameEncoder.Config.Load
import FrameEncoder.Pipeline.Config
import FrameEncoder.PixelFormat
import FrameEncoder.Toml.Document

/-!
# Probe settings

What the probe reads from its own configuration document: where the codec configuration is, how
the pipeline runs, the workload and the log level.

Sections and fields that are not named keep their defaults and unknown ones are ignored. A section
may also be an array of its fields in order. A value of the wrong type, or a number out of range,
makes the whole document worthless, and the defaults are used.
-/

namespace FrameEncoder.Probe

open Toml (Table Value)

/-- The synthetic workload. -/
structure Workload where
  frames : UInt32
  width : UInt32
  height : UInt32
  /-- The name of the pixel format. -/
  format : String
  /-- The number of channels the frames rotate over. -/
  channels : UInt32
  /-- The client acknowledges no frames. -/
  ackOff : Bool
deriving DecidableEq, Repr

instance : Inhabited Workload := ⟨30, 256, 256, "bgra", 1, false⟩

/-- The pixel format of a workload; an unknown name means BGRA. -/
def Workload.pixelFormat (w : Workload) : PixelFormat :=
  match w.format.toLower with
  | "nv12" => .nv12
  | "rgba" | "rgba32" => .rgba
  | _ => .bgra

/-- The settings of the probe. -/
structure Config where
  /-- The path of the codec configuration. -/
  gfxPath : String
  pipeline : PipelineConfig
  workload : Workload
  logLevel : String
deriving DecidableEq, Repr

instance : Inhabited Config := ⟨"gfx.toml", default, default, "info"⟩

/-- The fields of a section, by name or in order. -/
inductive Fields where
  | named (t : Table)
  | ordered (items : List Value)

namespace Fields

/-- The fields a value gives. A date gives none. -/
def ofValue? : Value → Option Fields
  | .table t => some (.named t)
  | .array items => some (.ordered items)
  | .datetime _ => some (.named [])
  | _ => none

/-- The value of a field, given its place and its name. -/
def get? (fs : Fields) (place : Nat) (name : String) : Option Value :=
  match fs with
  | named t => t.get? name
  | ordered items => items[place]?

/-- Read a field, or keep a default where it is not given. -/
def read {α : Type} (fs : Fields) (place : Nat) (name : String) (ofValue : Value → Option α)
    (default : α) : Option α :=
  match fs.get? place name with
  | some v => ofValue v
  | none => some default

end Fields

/-- A size: an integer that is not negative. -/
def sizeOf? (v : Value) : Option Nat :=
  v.integer?.bind fun n => if 0 ≤ n.toInt then some n.toInt.toNat else none

/-- An integer that fits 32 bits without a sign. -/
def wordOf? (v : Value) : Option UInt32 :=
  (sizeOf? v).bind fun n => if n < UInt32.size then some (UInt32.ofNat n) else none

/-- The name of a connection class in the probe's document. -/
def classNames : List (String × ConnectionClass) :=
  [("Default", .default), ("Modem", .modem), ("BroadbandLow", .broadbandLow),
    ("Satellite", .satellite), ("BroadbandHigh", .broadbandHigh), ("Wan", .wan), ("Lan", .lan),
    ("Autodetect", .autodetect)]

/-- The name of a connection class. -/
def className (c : ConnectionClass) : String :=
  match classNames.find? fun p => p.2 = c with
  | some p => p.1
  | none => ""

/-- A connection class: its name, or a table with its name alone over an empty table or array. -/
def classOf? : Value → Option ConnectionClass
  | .string name => classNames.lookup name
  | .table [(name, .table [])] | .table [(name, .array [])] => classNames.lookup name
  | _ => none

/-- Read the settings of the pipeline. -/
def pipelineOf? (v : Value) : Option PipelineConfig := do
  let base : PipelineConfig := default
  let fs ← Fields.ofValue? v
  let maxCompressedBytes ← fs.read 0 "max_compressed_bytes" sizeOf? base.maxCompressedBytes
  let padBytes ← fs.read 1 "pad_bytes" sizeOf? base.padBytes
  let outputChunkBytes ←
    fs.read 2 "output_chunk_bytes" (fun v => (sizeOf? v).map some) base.outputChunkBytes
  let maxFramesInFlight ← fs.read 3 "max_frames_in_flight" wordOf? base.maxFramesInFlight
  let connection ← fs.read 4 "connection_type" classOf? base.connection
  return { maxCompressedBytes, padBytes, outputChunkBytes, maxFramesInFlight, connection }

/-- Read the workload. -/
def workloadOf? (v : Value) : Option Workload := do
  let base : Workload := default
  let fs ← Fields.ofValue? v
  let frames ← fs.read 0 "frames" wordOf? base.frames
  let width ← fs.read 1 "width" wordOf? base.width
  let height ← fs.read 2 "height" wordOf? base.height
  let format ← fs.read 3 "format" Value.string? base.format
  let channels ← fs.read 4 "channels" wordOf? base.channels
  let ackOff ← fs.read 5 "ack_off" Value.boolean? base.ackOff
  return { frames, width, height, format, channels, ackOff }

/-- Read a section that holds one text. -/
def textSectionOf? (name base : String) (v : Value) : Option String := do
  let fs ← Fields.ofValue? v
  fs.read 0 name Value.string? base

namespace Config

/-- Read all settings. -/
def ofDocument? (doc : Table) : Option Config := do
  let base : Config := default
  let fs := Fields.named doc
  let gfxPath ← fs.read 0 "gfx" (textSectionOf? "config_path" base.gfxPath) base.gfxPath
  let pipeline ← fs.read 1 "pipeline" pipelineOf? base.pipeline
  let workload ← fs.read 2 "workload" workloadOf? base.workload
  let logLevel ← fs.read 3 "logging" (textSectionOf? "level" base.logLevel) base.logLevel
  return { gfxPath, pipeline, workload, logLevel }

/-- The settings in a text, or the defaults if it is no valid document. -/
def ofText (text : String) : Config := ((Toml.parse? text).bind ofDocument?).getD default

/-- The settings in a file, or the defaults if it cannot be read. -/
def ofFile (contents : Except ReadFailure ByteArray) : Config :=
  match contents.bind textOfBytes with
  | .ok text => ofText text
  | .error _ => default

end Config

end FrameEncoder.Probe
