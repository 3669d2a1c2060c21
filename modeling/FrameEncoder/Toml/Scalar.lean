import FrameEncoder.NearestDouble
import FrameEncoder.Toml.Text
import FrameEncoder.Toml.Value

/-!
# Numbers and dates

Integers, floating-point numbers, dates and times of a configuration document. Digits may be
parted by single underscores. Integers have to fit 64 bits; a number with a point or an exponent
is the nearest double; a date has to be in the calendar.
-/

namespace FrameEncoder.Toml

/-- The number a decimal digit stands for. -/
def digitValue (c : Char) : Nat := c.toNat - '0'.toNat

/-- The number of decimal digits. -/
def decimalNumber (digits : List Char) : Nat :=
  digits.foldl (fun n c => n * 10 + digitValue c) 0

/-- Digits, with single underscores between them left out. -/
def moreDigits (isDigit : Char → Bool) : Reader (List Char)
  | '_' :: c :: cs =>
    if isDigit c then (moreDigits isDigit cs).map fun (ds, cs) => (c :: ds, cs) else none
  | c :: cs =>
    if isDigit c then (moreDigits isDigit cs).map fun (ds, cs) => (c :: ds, cs)
    else if c = '_' then none
    else some ([], c :: cs)
  | [] => some ([], [])

/-- One digit or more. -/
def digits1 (isDigit : Char → Bool) : Reader (List Char)
  | c :: cs =>
    if isDigit c then (moreDigits isDigit cs).map fun (ds, cs) => (c :: ds, cs) else none
  | [] => none

/-- A sign, if there is one: whether it is a minus. -/
def sign : List Char → Bool × List Char
  | '+' :: cs => (false, cs)
  | '-' :: cs => (true, cs)
  | cs => (false, cs)

/-- Digits that do not start with a zero, or a zero alone. -/
def wholeDigits : Reader (List Char)
  | '0' :: cs => some (['0'], cs)
  | cs => digits1 Char.isDigit cs

/-- A whole number that fits 64 bits. -/
def integerOf? (n : Int) : Option Value :=
  if Int64.minValue.toInt ≤ n ∧ n ≤ Int64.maxValue.toInt then some (.integer (Int64.ofInt n))
  else none

/-- A number in base 2, 8 or 16. -/
def radixInteger (isDigit : Char → Bool) (base : Nat) : Reader Value := fun cs =>
  match digits1 isDigit cs with
  | some (ds, cs) =>
    let n := ds.foldl (fun n c => n * base + (hexValue? c).getD 0) 0
    (integerOf? n).map (·, cs)
  | none => none

/-- Whether a character is a digit in base 2. -/
def isBinaryDigit (c : Char) : Bool := c = '0' || c = '1'

/-- Whether a character is a digit in base 8. -/
def isOctalDigit (c : Char) : Bool := '0' ≤ c && c ≤ '7'

/-- Whether a character is a digit in base 16. -/
def isHexDigit (c : Char) : Bool := (hexValue? c).isSome

/-- The digits after a point, if there is one. -/
def fraction : Reader (Option (List Char))
  | '.' :: cs => (digits1 Char.isDigit cs).map fun (ds, cs) => (some ds, cs)
  | cs => some (none, cs)

/-- The exponent after its mark. -/
def exponentDigits (cs : List Char) : Option (Option Int × List Char) :=
  let (minus, cs) := sign cs
  match digits1 Char.isDigit cs with
  | some (ds, cs) =>
    let n : Int := decimalNumber ds
    some (some (if minus then -n else n), cs)
  | none => none

/-- An exponent, if there is one. -/
def exponent : Reader (Option Int)
  | 'e' :: cs => exponentDigits cs
  | 'E' :: cs => exponentDigits cs
  | cs => some (none, cs)

/-- The double of a decimal. One that rounds to positive infinity is malformed. -/
def floatOf? (minus : Bool) (whole : List Char) (fraction : Option (List Char))
    (exponent : Option Int) : Option Value :=
  let fraction := fraction.getD []
  let x := NearestDouble.ofDecimal (decimalNumber (whole ++ fraction))
    (exponent.getD 0 - fraction.length)
  if minus then some (.float (-x)) else if x.isInf then none else some (.float x)

/-- A decimal number: a floating-point number if it has a point or an exponent, else an integer. -/
def decimalValue (minus : Bool) : Reader Value := fun cs => do
  let (whole, cs) ← wholeDigits cs
  let (fraction, cs) ← fraction cs
  let (exponent, cs) ← exponent cs
  match fraction, exponent with
  | none, none =>
    let n : Int := decimalNumber whole
    (integerOf? (if minus then -n else n)).map (·, cs)
  | _, _ => (floatOf? minus whole fraction exponent).map (·, cs)

/-- Positive infinity. -/
def infinity : Float := Float.ofBits 0x7ff0000000000000

/-- The number that is none. -/
def notANumber : Float := Float.ofBits 0x7ff8000000000000

/-- A number after its sign. -/
def unsignedNumber (minus : Bool) : Reader Value
  | 'i' :: 'n' :: 'f' :: cs => some (.float (if minus then -infinity else infinity), cs)
  | 'n' :: 'a' :: 'n' :: cs => some (.float notANumber, cs)
  | cs => decimalValue minus cs

/-- A number. The other bases take no sign. -/
def number : Reader Value
  | '0' :: 'x' :: cs => radixInteger isHexDigit 16 cs
  | '0' :: 'o' :: cs => radixInteger isOctalDigit 8 cs
  | '0' :: 'b' :: cs => radixInteger isBinaryDigit 2 cs
  | cs =>
    let (minus, cs) := sign cs
    unsignedNumber minus cs

/-- The number of exactly `n` digits. -/
def fixedDigits (n : Nat) : Reader Nat := fun cs =>
  let ds := cs.take n
  if ds.length = n ∧ ds.all Char.isDigit then some (decimalNumber ds, cs.drop n) else none

/-- The days of a month. -/
def daysInMonth (year month : Nat) : Nat :=
  if month = 2 then
    if year % 4 = 0 ∧ (year % 100 ≠ 0 ∨ year % 400 = 0) then 29 else 28
  else if month = 4 ∨ month = 6 ∨ month = 9 ∨ month = 11 then 30
  else 31

/-- A particular character. -/
def exactly (c : Char) (cs : List Char) : Option (List Char) :=
  match cs with
  | d :: cs => if d = c then some cs else none
  | [] => none

/-- The text after a date. -/
def dateEnd? (cs : List Char) : Option (List Char) := do
  let (year, cs) ← fixedDigits 4 cs
  let cs ← exactly '-' cs
  let (month, cs) ← fixedDigits 2 cs
  let cs ← exactly '-' cs
  let (day, cs) ← fixedDigits 2 cs
  if 1 ≤ month ∧ month ≤ 12 ∧ 1 ≤ day ∧ day ≤ daysInMonth year month then some cs else none

/-- The text after an hour and a minute. -/
def hourMinuteEnd? (cs : List Char) : Option (List Char) := do
  let (hour, cs) ← fixedDigits 2 cs
  let cs ← exactly ':' cs
  let (minute, cs) ← fixedDigits 2 cs
  if hour ≤ 23 ∧ minute ≤ 59 then some cs else none

/-- The text after a fraction of a second, if there is one. -/
def skipSecondFraction : List Char → List Char
  | '.' :: c :: cs => if c.isDigit then cs.dropWhile Char.isDigit else '.' :: c :: cs
  | cs => cs

/-- The text after a time of day. -/
def timeEnd? (cs : List Char) : Option (List Char) := do
  let cs ← hourMinuteEnd? cs
  let cs ← exactly ':' cs
  let (second, cs) ← fixedDigits 2 cs
  if second ≤ 60 then some (skipSecondFraction cs) else none

/-- The text after an offset from universal time, if there is one. -/
def skipOffset : List Char → List Char
  | 'Z' :: cs => cs
  | 'z' :: cs => cs
  | '+' :: cs => (hourMinuteEnd? cs).getD ('+' :: cs)
  | '-' :: cs => (hourMinuteEnd? cs).getD ('-' :: cs)
  | cs => cs

/-- The text after a time of day that belongs to a date, if there is one. -/
def skipTimeOfDate : List Char → List Char
  | 'T' :: cs => ((timeEnd? cs).map skipOffset).getD ('T' :: cs)
  | 't' :: cs => ((timeEnd? cs).map skipOffset).getD ('t' :: cs)
  | ' ' :: cs => ((timeEnd? cs).map skipOffset).getD (' ' :: cs)
  | cs => cs

/-- The text after a date, a time of day or both. -/
def datetimeEnd? (cs : List Char) : Option (List Char) :=
  match dateEnd? cs with
  | some cs => some (skipTimeOfDate cs)
  | none => timeEnd? cs

/-- A date, a time of day or both. -/
def datetime : Reader Value := fun cs =>
  (datetimeEnd? cs).map fun rest =>
    (.datetime (String.ofList (cs.take (cs.length - rest.length))), rest)

/-- A value that starts like a number: a date if it can be one, else a number. -/
def datetimeOrNumber : Reader Value := fun cs =>
  match datetime cs with
  | some r => some r
  | none => number cs

end FrameEncoder.Toml
