import FrameEncoder.Tuning

/-!
# Configuration issues

What may be wrong with a configuration. No issue prevents loading; each names what was replaced.
-/

namespace FrameEncoder

/-- A file that could not be read as text. -/
inductive ReadFailure where
  | notFound
  | isDirectory
  | notText
  /-- The system gives another reason. -/
  | other (reason : String)
deriving DecidableEq, Repr

/-- The text of a read failure, in the system's words. -/
def ReadFailure.message : ReadFailure → String
  | notFound => "No such file or directory (os error 2)"
  | isDirectory => "Is a directory (os error 21)"
  | notText => "stream did not contain valid UTF-8"
  | other reason => reason

/-- A single problem found while loading. -/
inductive ConfigIssue where
  | unreadable (failure : ReadFailure)
  | malformed
  /-- No known codec is named. -/
  | codecOrderMissing
  /-- The H.264 encoder is not named, or is unknown. -/
  | h264EncoderInvalid (name : Option String)
  | tableMissing (table : H264Encoder)
  | sectionMissing (table : H264Encoder) (connection : ConnectionClass)
  /-- A field of a default section was replaced by its constant. -/
  | fieldDefaulted (table : H264Encoder) (field : String)
  /-- A field has a value that makes no sense. -/
  | invalidValue (table : H264Encoder) (connection : ConnectionClass) (field : String)
  /-- H.264 was asked for, but its encoder has no defaults. -/
  | h264Disabled (encoder : H264Encoder)
deriving DecidableEq, Repr

/-- Whether an issue alone makes a load less than complete. -/
def ConfigIssue.isSoftFailure : ConfigIssue → Bool
  | codecOrderMissing | h264EncoderInvalid _ => true
  | _ => false

/-- The outcome of a load, most severe first. -/
inductive LoadStatus where
  | unreadable
  | malformed
  | h264Disabled
  /-- A default order or encoder was put in. -/
  | degraded
  | complete
deriving DecidableEq, Repr

namespace LoadStatus

/-- The name of a status. -/
def name : LoadStatus → String
  | unreadable => "Unreadable"
  | malformed => "Malformed"
  | h264Disabled => "H264Disabled"
  | degraded => "Degraded"
  | complete => "Complete"

/-- Whether nothing of weight was amiss. -/
def isOk (s : LoadStatus) : Bool := s = complete

end LoadStatus

end FrameEncoder
