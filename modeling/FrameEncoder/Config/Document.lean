import FrameEncoder.Config.Load
import FrameEncoder.Toml.DateTable
import FrameEncoder.Toml.Document

/-!
# Configuration documents

A configuration is written in the notation of `Toml`. Here its text is read as a document for
loading.
-/

namespace FrameEncoder

/-- The document a text reads as, with dates put in the place of their tables. -/
def readDocument? (text : String) : Option Toml.Table :=
  (Toml.parse? text).bind Toml.foldEntries?

/-- Load the text of a configuration. -/
def loadText (text : String) : GfxLoad := .ofText readDocument? text

/-- Load a configuration from what reading its file gave. -/
def loadFile (contents : Except ReadFailure ByteArray) : GfxLoad := .ofFile readDocument? contents

end FrameEncoder
