import FrameEncoder.Bytes.Digest
import FrameEncoder.Engine

/-!
# Scripted engines

An engine that answers from a script instead of encoding, to see how a backend deals with any
course of events. One script may serve several sessions and backends.
-/

namespace FrameEncoder

/-- A scripted answer to opening a session. -/
inductive OpenAnswer where
  | succeed
  | fail (text : String)
  | unlinked

/-- A scripted answer to encoding a picture. -/
inductive EncodeAnswer where
  | skip
  | fail (text : String)
  | layers (layers : List Layer)
  /-- One unit with the digest of the picture's samples. -/
  | digest
  | crash
  /-- One unit for each plane of the picture. -/
  | planes

/-- The answers still to give; when the list of answers to pictures is used up, `rest` goes on. -/
structure Script where
  opens : List OpenAnswer
  encodes : List EncodeAnswer
  rest : EncodeAnswer

namespace EncodeAnswer

/-- The units an answer makes of a picture's planes. -/
def planeUnits (p : Picture) : List ByteArray :=
  match p.layout with
  | .i420 => [p.luma, p.chroma.1, p.chroma.2]
  | .nv12 => [p.luma, p.chroma.1]

/-- The digest of a picture's samples. -/
def pictureDigest (p : Picture) : ByteArray :=
  (Bytes.bigEndian64 (Bytes.fnv1a64 (Bytes.window p.data 0 (p.width * p.height * 3 / 2)))).toByteArray

/-- What a session replies by an answer. -/
def reply (p : Picture) : EncodeAnswer → SessionReply
  | skip => .output .skipped
  | fail text => .failed (.library text)
  | layers ls => .output (.coded ls)
  | digest => .output (.coded [⟨[pictureDigest p]⟩])
  | crash => .crashed
  | planes => .output (.coded [⟨planeUnits p⟩])

end EncodeAnswer

namespace Script

/-- The name scripted engines go by. -/
def engineName : String := "scripted"

/-- The least size of a scratch picture there is no memory for. -/
def memoryLimit : Nat := 1 <<< 47

/-- Answer an attempt to open a session. -/
def answerOpen (s : Script) : Except EngineError Unit × Script :=
  match s.opens with
  | [] => (.ok (), s)
  | .succeed :: opens => (.ok (), { s with opens })
  | .fail text :: opens => (.error (.library text), { s with opens })
  | .unlinked :: opens => (.error (.unlinked engineName), { s with opens })

/-- Answer a picture. -/
def answerEncode (s : Script) (p : Picture) : SessionReply × Script :=
  match s.encodes with
  | [] => (s.rest.reply p, s)
  | a :: encodes => (a.reply p, { s with encodes })

/-- The engine that follows a script. -/
def engine (P : Type) : Engine P Script where
  name := engineName
  linked := true
  openSession s _ _ _ := s.answerOpen
  encode s _ p := s.answerEncode p
  allocate s bytes := (decide (bytes < memoryLimit), s)

end Script

end FrameEncoder
