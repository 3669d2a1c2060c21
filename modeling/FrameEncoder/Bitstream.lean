import FrameEncoder.Bytes

/-!
# Coded output

What an encoder makes of a picture: nothing, if rate control drops it, or layers of coded units.
Units are laid into a destination in order, each of them whole or not at all.
-/

namespace FrameEncoder

/-- The coded units of one layer, in bitstream order. -/
structure Layer where
  units : List ByteArray
deriving DecidableEq

/-- The bytes of a layer. -/
def Layer.length (l : Layer) : Nat := Bytes.totalSize l.units

/-- The output of one encode call. -/
inductive CodedOutput where
  /-- Rate control dropped the picture. -/
  | skipped
  | coded (layers : List Layer)
deriving DecidableEq

namespace CodedOutput

/-- The units of all layers, in bitstream order. -/
def units : CodedOutput → List ByteArray
  | skipped => []
  | coded layers => layers.flatMap Layer.units

/-- The bytes of all layers. -/
def length (o : CodedOutput) : Nat := Bytes.totalSize o.units

/-- The bytes of a first layer and of those after it add up. -/
theorem length_coded_cons (l : Layer) (ls : List Layer) :
    (coded (l :: ls)).length = l.length + (coded ls).length := by
  simp [length, units, Layer.length, Bytes.totalSize_append]

end CodedOutput

/-- A destination with the units laid into it so far. -/
structure Laid where
  dest : ByteArray
  /-- The bytes the units take. -/
  written : Nat
  /-- Whether all units found room. -/
  complete : Bool

/-- Lay units into a destination from `written` on, up to the first that finds no room. -/
def layUnits : List ByteArray → Nat → ByteArray → Laid
  | [], written, dest => ⟨dest, written, true⟩
  | u :: us, written, dest =>
    if written + u.size ≤ dest.size then
      layUnits us (written + u.size) (Bytes.overlay dest written u)
    else ⟨dest, written, false⟩

/-- Write units into a destination from `written` on, without a look at the room that is left:
the bytes written up to then, and the destination. There is no result if a unit does not lie in
the destination. -/
def writeUnits : List ByteArray → Nat → ByteArray → Option (Nat × ByteArray)
  | [], written, dest => some (written, dest)
  | u :: us, written, dest =>
    (Bytes.write? dest written u).bind fun dest => writeUnits us (written + u.size) dest

/-- Units are written without a look just if they can be laid, and then they come to the same. -/
theorem writeUnits_eq (us : List ByteArray) (written : Nat) (dest : ByteArray) :
    let laid := layUnits us written dest
    writeUnits us written dest = if laid.complete then some (laid.written, laid.dest) else none := by
  induction us generalizing written dest with
  | nil => rfl
  | cons u us ih =>
    simp only [writeUnits, layUnits, Bytes.write?]
    split
    · next hu => exact ih (written + u.size) (Bytes.overlay dest written u)
    · next hu => rfl

/-- Units find room exactly if all their bytes do. -/
theorem complete_layUnits_iff (us : List ByteArray) (written : Nat) (dest : ByteArray)
    (h : written ≤ dest.size) :
    (layUnits us written dest).complete = true ↔
      written + Bytes.totalSize us ≤ dest.size := by
  induction us generalizing written dest with
  | nil => simp [layUnits, Bytes.totalSize, h]
  | cons u us ih =>
    simp only [layUnits, Bytes.totalSize]
    split
    · next hu =>
      rw [ih _ _ (by rw [Bytes.size_overlay _ _ _ hu]; exact hu), Bytes.size_overlay _ _ _ hu]
      omega
    · next hu =>
      constructor
      · intro hf
        cases hf
      · omega

/-- All of an output finds room from the first byte on exactly if it is no longer than the
destination. -/
theorem complete_layUnits_zero_iff (o : CodedOutput) (dest : ByteArray) :
    (layUnits o.units 0 dest).complete = true ↔ o.length ≤ dest.size := by
  rw [complete_layUnits_iff _ _ _ (Nat.zero_le _), Nat.zero_add]
  rfl

end FrameEncoder
