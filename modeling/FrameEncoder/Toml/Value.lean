/-!
# Configuration values

The values a configuration document can hold. A table keeps its entries in the order in which they
were defined, and no key is in it twice.
-/

namespace FrameEncoder.Toml

/-- A value of a configuration document. -/
inductive Value where
  | string (text : String)
  | integer (n : Int64)
  | float (x : Float)
  | boolean (b : Bool)
  /-- A date, a time of day or both, as written. -/
  | datetime (text : String)
  | array (items : List Value)
  | table (entries : List (String × Value))

/-- The entries of a table. -/
abbrev Table := List (String × Value)

namespace Value

/-- The text of a string. -/
def string? : Value → Option String
  | string text => some text
  | _ => none

/-- The number of an integer. -/
def integer? : Value → Option Int64
  | integer n => some n
  | _ => none

/-- The value of a boolean. -/
def boolean? : Value → Option Bool
  | boolean b => some b
  | _ => none

/-- The items of an array. -/
def array? : Value → Option (List Value)
  | array items => some items
  | _ => none

/-- The entries of a table. -/
def table? : Value → Option Table
  | table entries => some entries
  | _ => none

end Value

namespace Table

/-- The value of a key. -/
def get? (t : Table) (key : String) : Option Value := List.lookup key t

/-- The table of a key, if there is one. -/
def table? (t : Table) (key : String) : Option Table := (get? t key).bind Value.table?

end Table

end FrameEncoder.Toml
