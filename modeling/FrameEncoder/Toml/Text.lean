/-!
# Configuration text

Blanks, line ends, comments, strings and keys of a configuration document. Each reader takes the
text that is left and gives its value with the text after it, or nothing if the text is malformed.

Of the control characters, the tab and the line ends alone may stand anywhere.
-/

namespace FrameEncoder.Toml

/-- A reader of text. -/
abbrev Reader (α : Type) := List Char → Option (α × List Char)

/-- Blanks within a line. -/
def isBlank (c : Char) : Bool := c = ' ' || c = '\t'

/-- Characters of comments, and of strings where they have no meaning of their own. -/
def isPlainChar (c : Char) : Bool := c = '\t' || 0x20 ≤ c.toNat && c.toNat ≠ 0x7f

/-- Characters of bare keys. -/
def isBareChar (c : Char) : Bool := c.isAlphanum || c = '_' || c = '-'

/-- The text after the blanks it starts with. -/
def skipBlanks (cs : List Char) : List Char := cs.dropWhile isBlank

/-- The text after a line end. A carriage return alone is none. -/
def newline? : List Char → Option (List Char)
  | '\n' :: cs => some cs
  | '\r' :: '\n' :: cs => some cs
  | _ => none

/-- The text after a line end, or the end of the document. -/
def lineEnd? : List Char → Option (List Char)
  | [] => some []
  | cs => newline? cs

/-- The text after a comment, if there is one. -/
def skipComment : List Char → List Char
  | '#' :: cs => cs.dropWhile isPlainChar
  | cs => cs

/-- The text after blanks, a comment and the end of the line. -/
def restOfLine? (cs : List Char) : Option (List Char) := lineEnd? (skipComment (skipBlanks cs))

/-- The text after blanks, line ends and comments; a comment has to end with its line. -/
def skipGaps : (inComment : Bool) → List Char → Option (List Char)
  | _, '\n' :: cs => skipGaps false cs
  | _, '\r' :: '\n' :: cs => skipGaps false cs
  | false, '#' :: cs => skipGaps true cs
  | false, c :: cs => if isBlank c then skipGaps false cs else some (c :: cs)
  | true, c :: cs => if isPlainChar c then skipGaps true cs else none
  | false, [] => some []
  | true, [] => none

/-- The value of a hexadecimal digit. -/
def hexValue? (c : Char) : Option Nat :=
  if '0' ≤ c ∧ c ≤ '9' then some (c.toNat - '0'.toNat)
  else if 'a' ≤ c ∧ c ≤ 'f' then some (c.toNat - 'a'.toNat + 10)
  else if 'A' ≤ c ∧ c ≤ 'F' then some (c.toNat - 'A'.toNat + 10)
  else none

/-- The number of some hexadecimal digits. -/
def hexNumber? (digits : List Char) : Option Nat :=
  digits.foldlM (fun n c => (hexValue? c).map (n * 16 + ·)) 0

/-- The character of a code point, unless it is a surrogate or too large. -/
def charOfCode? (n : Nat) : Option Char := if n.isValidChar then some (Char.ofNat n) else none

/-- The character an escape of one letter stands for. -/
def escapeOf? : Char → Option Char
  | 'b' => some '\x08'
  | 't' => some '\t'
  | 'n' => some '\n'
  | 'f' => some '\x0c'
  | 'r' => some '\r'
  | '\x22' => some '\x22'
  | '\x5c' => some '\x5c'
  | _ => none

/-- The text of characters in reverse. -/
def textOf (reversed : List Char) : String := String.ofList reversed.reverse

/-- The rest of a string with escapes, up to its closing quote. -/
def basicString (reversed : List Char) : Reader String
  | '\x22' :: cs => some (textOf reversed, cs)
  | '\x5c' :: 'u' :: a :: b :: c :: d :: cs =>
    match (hexNumber? [a, b, c, d]).bind charOfCode? with
    | some x => basicString (x :: reversed) cs
    | none => none
  | '\x5c' :: 'U' :: a :: b :: c :: d :: e :: f :: g :: h :: cs =>
    match (hexNumber? [a, b, c, d, e, f, g, h]).bind charOfCode? with
    | some x => basicString (x :: reversed) cs
    | none => none
  | '\x5c' :: c :: cs =>
    match escapeOf? c with
    | some x => basicString (x :: reversed) cs
    | none => none
  | c :: cs => if isPlainChar c then basicString (c :: reversed) cs else none
  | [] => none

/-- Whether a line ends after blanks. -/
def endsLine (cs : List Char) : Bool := (newline? (skipBlanks cs)).isSome

/-- The rest of a string with escapes over several lines. Up to two quotes may stand before the
three that close it. A backslash at the end of a line drops the blanks and line ends after it;
while these are dropped, `skipping` is set. -/
def basicText (skipping : Bool) (reversed : List Char) : Reader String
  | '\x22' :: '\x22' :: '\x22' :: '\x22' :: '\x22' :: cs =>
    some (textOf ('\x22' :: '\x22' :: reversed), cs)
  | '\x22' :: '\x22' :: '\x22' :: '\x22' :: cs => some (textOf ('\x22' :: reversed), cs)
  | '\x22' :: '\x22' :: '\x22' :: cs => some (textOf reversed, cs)
  | '\r' :: '\n' :: cs => basicText skipping (if skipping then reversed else '\n' :: reversed) cs
  | '\n' :: cs => basicText skipping (if skipping then reversed else '\n' :: reversed) cs
  | '\x5c' :: 'u' :: a :: b :: c :: d :: cs =>
    match (hexNumber? [a, b, c, d]).bind charOfCode? with
    | some x => basicText false (x :: reversed) cs
    | none => none
  | '\x5c' :: 'U' :: a :: b :: c :: d :: e :: f :: g :: h :: cs =>
    match (hexNumber? [a, b, c, d, e, f, g, h]).bind charOfCode? with
    | some x => basicText false (x :: reversed) cs
    | none => none
  | '\x5c' :: c :: cs =>
    match escapeOf? c with
    | some x => basicText false (x :: reversed) cs
    | none =>
      if c = '\n' then basicText true reversed cs
      else if endsLine (c :: cs) then basicText true reversed cs
      else none
  | c :: cs =>
    if skipping && isBlank c then basicText true reversed cs
    else if isPlainChar c then basicText false (c :: reversed) cs
    else none
  | [] => none

/-- The rest of a string without escapes, up to its closing quote. -/
def literalString (reversed : List Char) : Reader String
  | '\x27' :: cs => some (textOf reversed, cs)
  | c :: cs => if isPlainChar c then literalString (c :: reversed) cs else none
  | [] => none

/-- The rest of a string without escapes over several lines. Up to two quotes may stand before
the three that close it. -/
def literalText (reversed : List Char) : Reader String
  | '\x27' :: '\x27' :: '\x27' :: '\x27' :: '\x27' :: cs =>
    some (textOf ('\x27' :: '\x27' :: reversed), cs)
  | '\x27' :: '\x27' :: '\x27' :: '\x27' :: cs => some (textOf ('\x27' :: reversed), cs)
  | '\x27' :: '\x27' :: '\x27' :: cs => some (textOf reversed, cs)
  | '\r' :: '\n' :: cs => literalText ('\n' :: reversed) cs
  | '\n' :: cs => literalText ('\n' :: reversed) cs
  | c :: cs => if isPlainChar c then literalText (c :: reversed) cs else none
  | [] => none

/-- The text after a line end that directly follows opening quotes; it is no part of a string. -/
def skipFirstNewline (cs : List Char) : List Char := (newline? cs).getD cs

/-- A string of any kind. -/
def stringValue : Reader String
  | '\x22' :: '\x22' :: '\x22' :: cs => basicText false [] (skipFirstNewline cs)
  | '\x22' :: cs => basicString [] cs
  | '\x27' :: '\x27' :: '\x27' :: cs => literalText [] (skipFirstNewline cs)
  | '\x27' :: cs => literalString [] cs
  | _ => none

/-- One part of a key: a string on one line, or a bare word. -/
def simpleKey : Reader String
  | '\x22' :: cs => basicString [] cs
  | '\x27' :: cs => literalString [] cs
  | cs =>
    match cs.takeWhile isBareChar with
    | [] => none
    | word => some (String.ofList word, cs.dropWhile isBareChar)

/-- A key may have fewer parts than this. -/
def keyLimit : Nat := 80

/-- The parts of a key, between dots and blanks; `parts` bounds their number. -/
def keyParts : (parts : Nat) → Reader (List String)
  | 0, _ => none
  | parts + 1, cs =>
    match simpleKey (skipBlanks cs) with
    | none => none
    | some (part, cs) =>
      match skipBlanks cs with
      | '.' :: cs =>
        match keyParts parts cs with
        | some (more, cs) => some (part :: more, cs)
        | none => none
      | cs => some ([part], cs)

/-- A key: all parts but the last, and the last. -/
structure Key where
  path : List String
  name : String
deriving DecidableEq, Repr

/-- The key of some parts. -/
def Key.ofParts? : List String → Option Key
  | [] => none
  | [name] => some ⟨[], name⟩
  | part :: parts => (ofParts? parts).map fun k => { k with path := part :: k.path }

/-- A key with fewer parts than the limit. -/
def key : Reader Key := fun cs =>
  match keyParts (keyLimit - 1) cs with
  | some (parts, cs) => (Key.ofParts? parts).map (·, cs)
  | none => none

end FrameEncoder.Toml
