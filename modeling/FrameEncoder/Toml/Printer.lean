import FrameEncoder.Bytes.Digest

/-!
# Printing configuration documents

Writes sections of plain fields: one field a line, a heading before each section and an empty line
between what comes before it and the heading.
-/

namespace FrameEncoder.Toml

/-- A plain value to print. -/
inductive Plain where
  | text (s : String)
  | number (n : Nat)
  | flag (b : Bool)

/-- The fields of a section, in order. -/
abbrev PlainFields := List (String × Plain)

/-- A character as it stands between quotes. -/
def quotedChar (c : Char) : List Char :=
  if c = '\x22' ∨ c = '\x5c' then ['\x5c', c]
  else if c = '\n' then ['\x5c', 'n']
  else if c = '\t' then ['\x5c', 't']
  else if c.toNat < 0x20 ∨ c.toNat = 0x7f then
    ['\x5c', 'u', '0', '0'] ++ Bytes.hexByte (UInt8.ofNat c.toNat)
  else [c]

/-- A plain value in a document. -/
def Plain.print : Plain → String
  | text s => "\"" ++ String.ofList (s.toList.flatMap quotedChar) ++ "\""
  | number n => toString n
  | flag b => if b then "true" else "false"

/-- Fields, one a line. -/
def printFields (fields : PlainFields) : String :=
  String.join (fields.map fun f => f.1 ++ " = " ++ f.2.print ++ "\n")

/-- A section under its heading. -/
def printSection (s : String × PlainFields) : String :=
  "[" ++ s.1 ++ "]\n" ++ printFields s.2

/-- A document of sections. -/
def printSections (sections : List (String × PlainFields)) : String :=
  "\n".intercalate (sections.map printSection)

end FrameEncoder.Toml
