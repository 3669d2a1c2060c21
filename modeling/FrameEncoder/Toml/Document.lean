import FrameEncoder.Toml.Scalar
import FrameEncoder.Toml.Section

/-!
# Configuration documents

The grammar of a document: values of every kind, key-value pairs, headers and lines. Arrays and
tables in braces may be nested to a limited depth.
-/

namespace FrameEncoder.Toml

/-- Arrays and tables in braces may be nested less deep than this. -/
def nestingLimit : Nat := 80

mutual

/-- A value inside `depth` others. The fuel bounds the steps through nested values. -/
def value : (fuel depth : Nat) → Reader Value
  | 0, _, _ => none
  | fuel + 1, depth, cs =>
    match cs with
    | '\x22' :: _ | '\x27' :: _ => (stringValue cs).map fun (s, cs) => (.string s, cs)
    | '[' :: cs =>
      if depth + 1 < nestingLimit then
        (arrayItems fuel (depth + 1) cs).map fun (vs, cs) => (.array vs, cs)
      else none
    | '\x7b' :: cs =>
      if depth + 1 < nestingLimit then
        match bracedPairs fuel (depth + 1) cs with
        | some (pairs, cs) => (joinPairs? pairs).map fun t => (.table t, cs)
        | none => none
      else none
    | 't' :: 'r' :: 'u' :: 'e' :: cs => some (.boolean true, cs)
    | 'f' :: 'a' :: 'l' :: 's' :: 'e' :: cs => some (.boolean false, cs)
    | cs => datetimeOrNumber cs

/-- The items of an array up to its closing bracket; a comma may follow the last one. -/
def arrayItems : (fuel depth : Nat) → Reader (List Value)
  | 0, _, _ => none
  | fuel + 1, depth, cs =>
    match skipGaps false cs with
    | none => none
    | some (']' :: cs) => some ([], cs)
    | some cs =>
      match value fuel depth cs with
      | none => none
      | some (v, cs) =>
        match skipGaps false cs with
        | some (',' :: cs) => (arrayItems fuel depth cs).map fun (vs, cs) => (v :: vs, cs)
        | some (']' :: cs) => some ([v], cs)
        | _ => none

/-- The pairs of a table in braces up to its closing brace, on one line. -/
def bracedPairs : (fuel depth : Nat) → Reader (List (Key × Value))
  | 0, _, _ => none
  | fuel + 1, depth, cs =>
    match skipBlanks cs with
    | '\x7d' :: cs => some ([], cs)
    | cs => morePairs fuel depth cs

/-- The pairs of a table in braces after the opening brace or a comma; at least one has to come. -/
def morePairs : (fuel depth : Nat) → Reader (List (Key × Value))
  | 0, _, _ => none
  | fuel + 1, depth, cs =>
    match key cs with
    | some (k, '=' :: cs) =>
      match value fuel depth (skipBlanks cs) with
      | none => none
      | some (v, cs) =>
        match skipBlanks cs with
        | ',' :: cs => (morePairs fuel depth cs).map fun (ps, cs) => ((k, v) :: ps, cs)
        | '\x7d' :: cs => some ([(k, v)], cs)
        | _ => none
    | _ => none

end

/-- Enough fuel for a value in a text: no step is taken without a character read or a bracket
opened before it. -/
def fuelFor (cs : List Char) : Nat := 3 * cs.length + 3

/-- A key-value pair on a line of its own. -/
def pairLine : Reader (Key × Value) := fun cs =>
  match key cs with
  | some (k, '=' :: cs) =>
    let cs := skipBlanks cs
    match value (fuelFor cs) 0 cs with
    | some (v, cs) => (restOfLine? cs).map fun cs => ((k, v), cs)
    | none => none
  | _ => none

/-- The key of a header between single brackets, after the opening one, to the end of the line. -/
def tableHeader : Reader Key := fun cs =>
  match key cs with
  | some (k, ']' :: cs) => (restOfLine? cs).map fun cs => (k, cs)
  | _ => none

/-- The key of a header between double brackets, after the opening ones, to the end of the line. -/
def elementHeader : Reader Key := fun cs =>
  match key cs with
  | some (k, ']' :: ']' :: cs) => (restOfLine? cs).map fun cs => (k, cs)
  | _ => none

/-- The sections of a document, the one that is being read given by its heading and its pairs in
reverse. The fuel bounds the number of lines. -/
def sections : (fuel : Nat) → Heading → List (Key × Value) → List Char → Option (List Section)
  | 0, _, _, _ => none
  | fuel + 1, heading, pairs, cs =>
    match skipBlanks cs with
    | [] => some [⟨heading, pairs.reverse⟩]
    | '#' :: cs => (restOfLine? ('#' :: cs)).bind (sections fuel heading pairs)
    | '\n' :: cs => sections fuel heading pairs cs
    | '\r' :: '\n' :: cs => sections fuel heading pairs cs
    | '[' :: '[' :: cs =>
      match elementHeader cs with
      | some (k, cs) =>
        (sections fuel (.element k) [] cs).map (⟨heading, pairs.reverse⟩ :: ·)
      | none => none
    | '[' :: cs =>
      match tableHeader cs with
      | some (k, cs) => (sections fuel (.table k) [] cs).map (⟨heading, pairs.reverse⟩ :: ·)
      | none => none
    | cs =>
      match pairLine cs with
      | some (pair, cs) => sections fuel heading (pair :: pairs) cs
      | none => none

/-- The text after a byte order mark. -/
def skipMark : List Char → List Char
  | '\ufeff' :: cs => cs
  | cs => cs

/-- The table of a document, unless the document is malformed. -/
def parse? (text : String) : Option Table :=
  let cs := skipMark text.toList
  (sections (cs.length + 1) .root [] cs).bind joinSections?

end FrameEncoder.Toml
