import FrameEncoder.Config.Cascade
import FrameEncoder.Config.CodecOrder
import FrameEncoder.Toml.Value

/-!
# Loading the configuration

A configuration document names the codecs to offer, the H.264 encoder to use and its tuning.
Loading always gives a configuration; what had to be replaced is reported beside it.

Tuning is read only where H.264 is in the order. If the chosen encoder has no default section,
H.264 is taken out of the order again.

How a text is read as a document is left open: loading takes the reader as a parameter.
-/

namespace FrameEncoder

open Toml (Table Value)

/-- A resolved configuration. -/
structure GfxConfig where
  codecOrder : CodecOrder
  encoder : H264Encoder
  tuning : Tuning

namespace GfxConfig

/-- The configuration without a document. -/
def minimal : GfxConfig := ⟨.minimal, .x264, .constants⟩

instance : Inhabited GfxConfig := ⟨minimal⟩

end GfxConfig

/-- What a load gives. -/
structure GfxLoad where
  config : GfxConfig
  status : LoadStatus
  /-- The issues, in the order in which they were found. -/
  issues : List ConfigIssue

/-- The codecs a document names, unknown names left out. -/
def namedCodecs (doc : Table) : List Codec :=
  let names := ((doc.table? "codec").bind fun t => (t.get? "order").bind Value.array?).getD []
  (names.filterMap Value.string?).filterMap Codec.ofName?

/-- The codec order of a document. -/
def readCodecOrder (doc : Table) : CodecOrder × List ConfigIssue :=
  match namedCodecs doc with
  | [] => (.preferred, [.codecOrderMissing])
  | codecs => (.ofList codecs, [])

/-- The name of the H.264 encoder in a document. -/
def namedEncoder (doc : Table) : Option String :=
  (doc.table? "codec").bind fun t => (t.get? "h264_encoder").bind Value.string?

/-- The encoder of a name, whatever the case of its letters. -/
def H264Encoder.ofName? (name : String) : Option H264Encoder :=
  match name.toLower with
  | "x264" => some .x264
  | "openh264" => some .openH264
  | _ => none

/-- The H.264 encoder of a document. -/
def readEncoder (doc : Table) : H264Encoder × List ConfigIssue :=
  match (namedEncoder doc).bind H264Encoder.ofName? with
  | some e => (e, [])
  | none => (.x264, [.h264EncoderInvalid (namedEncoder doc)])

/-- What a document resolves to, with the issues found. -/
structure Resolution where
  config : GfxConfig
  issues : List ConfigIssue
  /-- Whether H.264 was taken out of the order. -/
  disabled : Bool

/-- Resolve a document. -/
def resolveDocument (doc : Table) : Resolution :=
  let (order, orderIssues) := readCodecOrder doc
  let (encoder, encoderIssues) := readEncoder doc
  let issues := orderIssues ++ encoderIssues
  if !order.contains .h264 then ⟨⟨order, encoder, .constants⟩, issues, false⟩
  else
    let x264 := x264Reader.readTable doc
    let openH264 := openH264Reader.readTable doc
    let tuning : Tuning := ⟨x264.table, openH264.table⟩
    let issues := issues ++ x264.issues ++ openH264.issues
    let loaded := match encoder with
      | .x264 => x264.loaded
      | .openH264 => openH264.loaded
    if loaded then ⟨⟨order, encoder, tuning⟩, issues, false⟩
    else ⟨⟨order.disable .h264, encoder, tuning⟩, issues ++ [.h264Disabled encoder], true⟩

/-- The status of a resolved document. -/
def Resolution.status (r : Resolution) : LoadStatus :=
  if r.disabled then .h264Disabled
  else if r.issues.any ConfigIssue.isSoftFailure then .degraded
  else .complete

/-- The text of a file's contents, if they are text. -/
def textOfBytes (bytes : ByteArray) : Except ReadFailure String :=
  match String.fromUTF8? bytes with
  | some text => .ok text
  | none => .error .notText

namespace GfxLoad

variable (read? : String → Option Table)

/-- Load the text of a configuration. -/
def ofText (text : String) : GfxLoad :=
  match read? text with
  | none => ⟨.minimal, .malformed, [.malformed]⟩
  | some doc =>
    let r := resolveDocument doc
    ⟨r.config, r.status, r.issues⟩

/-- Load a configuration from what reading its file gave. -/
def ofFile (contents : Except ReadFailure ByteArray) : GfxLoad :=
  match contents.bind textOfBytes with
  | .ok text => ofText read? text
  | .error failure => ⟨.minimal, .unreadable, [.unreadable failure]⟩

end GfxLoad

end FrameEncoder
