import FrameEncoder.Toml.Scalar

/-!
# Dates in the form of tables

One key is reserved: a table that starts with it is not a table but a date, written as a string
under that key, and its other entries count for nothing. A table that starts with the key but has
no date there makes the document malformed. Further down in a table the key is like any other,
and so it is in the table that is the document itself.
-/

namespace FrameEncoder.Toml

/-- The key that makes a date of a table. -/
def dateKey : String := "$__toml_private_datetime"

/-- Whether a text is a date, a time of day or both, and nothing else. -/
def isDatetime (text : String) : Bool := datetimeEnd? text.toList = some []

/-- The date a value under the reserved key stands for. -/
def dateOf? : Value → Option Value
  | .string text => if isDatetime text then some (.datetime text) else none
  | _ => none

mutual

/-- A value with the dates in it put in the place of their tables. -/
def Value.foldDates? : Value → Option Value
  | .table [] => some (.table [])
  | .table ((k, v) :: es) =>
    if k = dateKey then dateOf? v
    else (foldEntries? ((k, v) :: es)).map .table
  | .array items => (foldItems? items).map .array
  | v => some v

/-- Entries with the dates in their values put in the place of their tables. -/
def foldEntries? : List (String × Value) → Option Table
  | [] => some []
  | (k, v) :: es =>
    match v.foldDates?, foldEntries? es with
    | some v, some es => some ((k, v) :: es)
    | _, _ => none

/-- Items with the dates in them put in the place of their tables. -/
def foldItems? : List Value → Option (List Value)
  | [] => some []
  | v :: vs =>
    match v.foldDates?, foldItems? vs with
    | some v, some vs => some (v :: vs)
    | _, _ => none

end

end FrameEncoder.Toml
