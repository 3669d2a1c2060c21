/-!
# Connection classes

The connection-quality classes a client may announce, and tables with one record per class
that encoders can be tuned for.
-/

namespace FrameEncoder

/-- A connection-quality class. -/
inductive ConnectionClass where
  /-- The base the other classes inherit from; no client announces it. -/
  | default
  | modem
  | broadbandLow
  | satellite
  | broadbandHigh
  | wan
  | lan
  /-- The client asks for a measurement; it has no record of its own. -/
  | autodetect
deriving DecidableEq, Repr, Inhabited

namespace ConnectionClass

/-- The classes with a record of their own, in slot order. -/
def tuned : List ConnectionClass :=
  [default, modem, broadbandLow, satellite, broadbandHigh, wan, lan]

/-- The number a class has on the wire. -/
def wire : ConnectionClass → Nat
  | default => 0
  | modem => 1
  | broadbandLow => 2
  | satellite => 3
  | broadbandHigh => 4
  | wan => 5
  | lan => 6
  | autodetect => 7

/-- The class of a wire number, if the number is known. -/
def ofWire? : Nat → Option ConnectionClass
  | 0 => some default
  | 1 => some modem
  | 2 => some broadbandLow
  | 3 => some satellite
  | 4 => some broadbandHigh
  | 5 => some wan
  | 6 => some lan
  | 7 => some autodetect
  | _ => none

/-- The name of the configuration section that tunes a class. -/
def sectionName : ConnectionClass → String
  | default => "default"
  | modem => "modem"
  | broadbandLow => "broadband_low"
  | satellite => "satellite"
  | broadbandHigh => "broadband_high"
  | wan => "wan"
  | lan => "lan"
  | autodetect => "autodetect"

/-- The slot of a class in a parameter table, if it has one. -/
def slot? : ConnectionClass → Option (Fin 7)
  | default => some 0
  | modem => some 1
  | broadbandLow => some 2
  | satellite => some 3
  | broadbandHigh => some 4
  | wan => some 5
  | lan => some 6
  | autodetect => none

/-- The class an encoder tunes for: what is not a measured link class counts as a local network. -/
def clampForEncode (wire : Nat) : ConnectionClass :=
  match ofWire? wire with
  | some default | some autodetect | none => lan
  | some c => c

/-- Every class is read back from its wire number. -/
theorem ofWire?_wire (c : ConnectionClass) : ofWire? c.wire = some c := by
  cases c <;> rfl

/-- An encoder never tunes for a class without a record or for the base. -/
theorem clampForEncode_mem_tuned (w : Nat) :
    clampForEncode w ∈ tuned ∧ clampForEncode w ≠ default := by
  unfold clampForEncode
  cases ofWire? w with
  | none => decide
  | some c => cases c <;> decide

end ConnectionClass

/-- One record per tuned class. -/
structure ParamTable (α : Type) where
  /-- The records, in slot order. -/
  entries : Vector α 7

namespace ParamTable

variable {α : Type}

/-- The table that holds the same record in every slot. -/
def const (a : α) : ParamTable α := ⟨Vector.replicate 7 a⟩

/-- The table with a given record for every tuned class. -/
def ofFun (f : ConnectionClass → α) : ParamTable α :=
  ⟨#v[f .default, f .modem, f .broadbandLow, f .satellite, f .broadbandHigh, f .wan, f .lan]⟩

instance [Inhabited α] : Inhabited (ParamTable α) := ⟨const default⟩

/-- The record the other slots inherit from. -/
def base (t : ParamTable α) : α := t.entries[0]

/-- The record of a slot, if there is such a slot. -/
def get? (t : ParamTable α) (slot : Nat) : Option α := t.entries[slot]?

/-- The record used for a class; a class without one uses that of a local network. -/
def forEncode (t : ParamTable α) (c : ConnectionClass) : α :=
  t.entries[(c.slot?.getD 6).val]

/-- The classes with their records, in slot order. -/
def toList (t : ParamTable α) : List (ConnectionClass × α) :=
  ConnectionClass.tuned.zip t.entries.toList

/-- A constant table gives its record for every class. -/
theorem forEncode_const (a : α) (c : ConnectionClass) : (const a).forEncode c = a := by
  simp [forEncode, const]

/-- A table gives a tuned class the record it was made with. -/
theorem forEncode_ofFun (f : ConnectionClass → α) (c : ConnectionClass)
    (h : c ∈ ConnectionClass.tuned) : (ofFun f).forEncode c = f c := by
  cases c <;> first | rfl | simp [ConnectionClass.tuned] at h

end ParamTable

end FrameEncoder
