/-!
# Command line arguments

The arguments of the probe. A value stands behind its option or is joined to it by an equals sign;
the short option may have it right behind its letter. No option may be given twice, there are no
other arguments, and a value that stands alone may not look like an option.
-/

namespace FrameEncoder.Probe

/-- The arguments of the probe. -/
structure Arguments where
  /-- The path of the probe's settings. -/
  configPath : Option String
  /-- The path of the codec configuration, in place of the one in the settings. -/
  gfxPath : Option String
  /-- Only print the default settings. -/
  genConfig : Bool
  /-- Only test the engines. -/
  selfTest : Bool
  frames : Option UInt32
  width : Option UInt32
  height : Option UInt32
deriving DecidableEq, Repr

namespace Arguments

/-- No arguments. -/
def none : Arguments := ⟨.none, .none, false, false, .none, .none, .none⟩

/-- An option that takes a value. -/
inductive ValueOption where
  | config
  | gfxConfig
  | frames
  | width
  | height
deriving DecidableEq, Repr

/-- The option of a long name. -/
def ValueOption.ofName? : String → Option ValueOption
  | "config" => some config
  | "gfx-config" => some gfxConfig
  | "frames" => some frames
  | "width" => some width
  | "height" => some height
  | _ => .none

/-- The path a value gives; it must not be empty. -/
def pathOf? (value : String) : Option String := if value.isEmpty then .none else some value

/-- A number of decimal digits, one at least. -/
def naturalOf? (digits : List Char) : Option Nat :=
  if digits ≠ [] ∧ digits.all Char.isDigit then
    some (digits.foldl (fun n c => n * 10 + (c.toNat - '0'.toNat)) 0)
  else .none

/-- The 32-bit number a value gives. A sign may precede the digits; only zero may be negative. -/
def numberOf? (value : String) : Option UInt32 :=
  let (minus, digits) := match value.toList with
    | '+' :: cs => (false, cs)
    | '-' :: cs => (true, cs)
    | cs => (false, cs)
  match naturalOf? digits with
  | some n => if n < UInt32.size ∧ (n = 0 ∨ !minus) then some (UInt32.ofNat n) else .none
  | .none => .none

/-- Set what was not set before. -/
def setOnce {α : Type} (old new : Option α) : Option (Option α) :=
  match old, new with
  | .none, some a => some (some a)
  | _, _ => .none

/-- Give an option its value. -/
def setValue (a : Arguments) (o : ValueOption) (value : String) : Option Arguments :=
  match o with
  | .config => (setOnce a.configPath (pathOf? value)).map fun p => { a with configPath := p }
  | .gfxConfig => (setOnce a.gfxPath (pathOf? value)).map fun p => { a with gfxPath := p }
  | .frames => (setOnce a.frames (numberOf? value)).map fun n => { a with frames := n }
  | .width => (setOnce a.width (numberOf? value)).map fun n => { a with width := n }
  | .height => (setOnce a.height (numberOf? value)).map fun n => { a with height := n }

/-- Set an option that takes no value. -/
def setFlag (a : Arguments) (name : String) : Option Arguments :=
  match name with
  | "gen-config" => if a.genConfig then .none else some { a with genConfig := true }
  | "self-test" => if a.selfTest then .none else some { a with selfTest := true }
  | _ => .none

/-- Whether an argument looks like an option. -/
def looksLikeOption (arg : String) : Bool :=
  match arg.toList with
  | '-' :: _ :: _ => true
  | _ => false

/-- What one argument says. -/
inductive Word where
  /-- No option follows. -/
  | separator
  /-- An option with a value joined to it. -/
  | joined (option : ValueOption) (value : String)
  /-- An option whose value has to follow. -/
  | awaiting (option : ValueOption)
  | flag (name : String)
  | unknown
deriving DecidableEq, Repr

/-- A long option, without its dashes. -/
def longWord (body : List Char) : Word :=
  let name := String.ofList (body.takeWhile (· != '='))
  match body.dropWhile (· != '='), ValueOption.ofName? name with
  | [], some o => .awaiting o
  | [], .none => .flag name
  | _ :: value, some o => .joined o (String.ofList value)
  | _ :: _, .none => .unknown

/-- What an argument says by itself. -/
def wordOf (arg : String) : Word :=
  match arg.toList with
  | ['-', '-'] => .separator
  | '-' :: '-' :: body => longWord body
  | ['-', 'c'] => .awaiting .config
  | '-' :: 'c' :: '=' :: value => .joined .config (String.ofList value)
  | '-' :: 'c' :: value => .joined .config (String.ofList value)
  | _ => .unknown

/-- Read arguments after some others. -/
def readFrom (a : Arguments) : List String → Option Arguments
  | [] => some a
  | arg :: rest =>
    match wordOf arg with
    | .separator => if rest.isEmpty then some a else .none
    | .joined o value => (a.setValue o value).bind (readFrom · rest)
    | .flag name => (a.setFlag name).bind (readFrom · rest)
    | .awaiting o =>
      match rest with
      | value :: rest =>
        if looksLikeOption value then .none else (a.setValue o value).bind (readFrom · rest)
      | [] => .none
    | .unknown => .none

/-- Read all arguments, unless they make no sense. -/
def read? (args : List String) : Option Arguments := readFrom none args

end Arguments

end FrameEncoder.Probe
