import FrameEncoder.Toml.Value

/-!
# Codec order

The graphics codecs a server can offer, and its order of preference among them.
-/

namespace FrameEncoder

/-- A graphics codec a server can offer. -/
inductive Codec where
  | h264
  | rfx
deriving DecidableEq, Repr

namespace Codec

/-- The name of a codec. -/
def name : Codec → String
  | h264 => "H264"
  | rfx => "RFX"

/-- The codec of a name, whatever the case of its letters. -/
def ofName? (name : String) : Option Codec :=
  match name.toLower with
  | "h264" | "h.264" => some h264
  | "rfx" => some rfx
  | _ => none

end Codec

/-- Codecs, the most preferred first, none of them twice. -/
structure CodecOrder where
  codecs : List Codec
deriving DecidableEq, Repr

namespace CodecOrder

/-- The order when a document names no codec. -/
def preferred : CodecOrder := ⟨[.h264, .rfx]⟩

/-- The order when there is no document. -/
def minimal : CodecOrder := ⟨[.rfx]⟩

/-- Whether a codec is in the order. -/
def contains (o : CodecOrder) (c : Codec) : Bool := o.codecs.contains c

/-- Take a codec out of the order. -/
def disable (o : CodecOrder) (c : Codec) : CodecOrder := ⟨o.codecs.filter (· != c)⟩

/-- Add a codec at the end unless it is in the order. -/
def pushOnce (o : CodecOrder) (c : Codec) : CodecOrder :=
  if o.contains c then o else ⟨o.codecs ++ [c]⟩

/-- The order of some codecs, each at its first place. -/
def ofList (cs : List Codec) : CodecOrder := cs.foldl pushOnce ⟨[]⟩

/-- The names of the codecs in order. -/
def display (o : CodecOrder) : String := ", ".intercalate (o.codecs.map Codec.name)

/-- A codec that was taken out is gone. -/
theorem contains_disable (o : CodecOrder) (c : Codec) : (o.disable c).contains c = false := by
  simp [contains, disable]

end CodecOrder

end FrameEncoder
