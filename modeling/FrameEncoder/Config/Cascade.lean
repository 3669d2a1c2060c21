import FrameEncoder.Config.Issue
import FrameEncoder.Toml.Value

/-!
# Cascading parameters

How the sections of a tuning table become one record per connection class. A field is taken from
the section of its class if it is there with the right type, else from the default section, else
from the documented constants. Only the default section reports fields it lacks.
-/

namespace FrameEncoder

open Toml (Table Value)

/-- What became of a section: a record and the issues on the way to it. -/
structure SectionReading (P : Type) where
  params : P
  issues : List ConfigIssue

/-- How a tuning table is read: its encoder, its constants, and the reading of one section given
the record it inherits from. -/
structure TableReader (P : Type) where
  encoder : H264Encoder
  constants : P
  read : Table → ConnectionClass → P → SectionReading P

/-- The issues of fields that were or were not found in a section: the default section reports
those it lacks. -/
def missingIssues (encoder : H264Encoder) (c : ConnectionClass) (fields : List (String × Bool)) :
    List ConfigIssue :=
  if c = .default then
    (fields.filter fun f => !f.2).map fun f => .fieldDefaulted encoder f.1
  else []

/-- The text of a field. -/
def textField? (t : Table) (field : String) : Option String :=
  (t.get? field).bind Value.string?

/-- The integer of a field. -/
def integerField? (t : Table) (field : String) : Option Int64 :=
  (t.get? field).bind Value.integer?

/-- The boolean of a field. -/
def booleanField? (t : Table) (field : String) : Option Bool :=
  (t.get? field).bind Value.boolean?

/-- The rate of a field, an integer or not. -/
def rateField? (t : Table) (field : String) : Option Float32 :=
  match t.get? field with
  | some (.float x) => some x.toFloat32
  | some (.integer n) => some n.toFloat32
  | _ => none

/-- The number of threads a section gives, where a negative one means the constant. -/
def threadsOf (given : Option Int64) (inherited : Int64) : Int64 :=
  match given with
  | some n => if n < 0 then X264Params.constants.threads else n
  | none => inherited

/-- The issues with the number of threads of a section. -/
def threadsIssues (given : Option Int64) (c : ConnectionClass) : List ConfigIssue :=
  match given with
  | some n => if n < 0 then [.invalidValue .x264 c "threads"] else []
  | none => missingIssues .x264 c [("threads", false)]

/-- Read a section of x264 parameters. -/
def readX264 (t : Table) (c : ConnectionClass) (inherited : X264Params) :
    SectionReading X264Params :=
  let preset := textField? t "preset"
  let tune := textField? t "tune"
  let profile := textField? t "profile"
  let vbvMaxBitrate := integerField? t "vbv_max_bitrate"
  let vbvBufferSize := integerField? t "vbv_buffer_size"
  let fpsNum := integerField? t "fps_num"
  let fpsDen := integerField? t "fps_den"
  let threads := integerField? t "threads"
  { params := {
      preset := preset.getD inherited.preset
      tune := tune.getD inherited.tune
      profile := profile.getD inherited.profile
      vbvMaxBitrate := vbvMaxBitrate.getD inherited.vbvMaxBitrate
      vbvBufferSize := vbvBufferSize.getD inherited.vbvBufferSize
      fpsNum := fpsNum.getD inherited.fpsNum
      fpsDen := fpsDen.getD inherited.fpsDen
      threads := threadsOf threads inherited.threads }
    issues :=
      missingIssues .x264 c [("preset", preset.isSome), ("tune", tune.isSome),
        ("profile", profile.isSome), ("vbv_max_bitrate", vbvMaxBitrate.isSome),
        ("vbv_buffer_size", vbvBufferSize.isSome), ("fps_num", fpsNum.isSome),
        ("fps_den", fpsDen.isSome)] ++
      threadsIssues threads c }

/-- Read a section of OpenH264 parameters. -/
def readOpenH264 (t : Table) (c : ConnectionClass) (inherited : OpenH264Params) :
    SectionReading OpenH264Params :=
  let enableFrameSkip := booleanField? t "EnableFrameSkip"
  let targetBitrate := integerField? t "TargetBitrate"
  let maxBitrate := integerField? t "MaxBitrate"
  let maxFrameRate := rateField? t "MaxFrameRate"
  { params := {
      enableFrameSkip := enableFrameSkip.getD inherited.enableFrameSkip
      targetBitrate := targetBitrate.getD inherited.targetBitrate
      maxBitrate := maxBitrate.getD inherited.maxBitrate
      maxFrameRate := maxFrameRate.getD inherited.maxFrameRate }
    issues :=
      missingIssues .openH264 c [("EnableFrameSkip", enableFrameSkip.isSome),
        ("TargetBitrate", targetBitrate.isSome), ("MaxBitrate", maxBitrate.isSome),
        ("MaxFrameRate", maxFrameRate.isSome)] }

/-- How the table of x264 is read. -/
def x264Reader : TableReader X264Params := ⟨.x264, .constants, readX264⟩

/-- How the table of OpenH264 is read. -/
def openH264Reader : TableReader OpenH264Params := ⟨.openH264, .constants, readOpenH264⟩

/-- What became of a tuning table. -/
structure TableReading (P : Type) where
  table : ParamTable P
  issues : List ConfigIssue
  /-- Whether the default section was there. -/
  loaded : Bool

namespace TableReader

variable {P : Type} (R : TableReader P)

/-- Read the section of a class; a class without one inherits everything silently. -/
def readSection (t : Table) (base : P) (c : ConnectionClass) : SectionReading P :=
  match t.table? c.sectionName with
  | some s => R.read s c base
  | none => ⟨base, []⟩

/-- Read a table whose default section gave a base. -/
def readSections (t : Table) (base : SectionReading P) : TableReading P :=
  let reading (c : ConnectionClass) : SectionReading P :=
    if c = .default then base else R.readSection t base.params c
  { table := .ofFun fun c => (reading c).params
    issues := ConnectionClass.tuned.flatMap fun c => (reading c).issues
    loaded := true }

/-- Read the tuning table of a document. Without the table or its default section all classes
have the constants. -/
def readTable (doc : Table) : TableReading P :=
  match doc.table? R.encoder.name with
  | none => ⟨.const R.constants, [.tableMissing R.encoder], false⟩
  | some t =>
    match t.table? ConnectionClass.default.sectionName with
    | none => ⟨.const R.constants, [.sectionMissing R.encoder .default], false⟩
    | some s => R.readSections t (R.read s .default R.constants)

end TableReader

end FrameEncoder
