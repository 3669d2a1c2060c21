import FrameEncoder.Bytes

/-!
# Planes and transfers

A plane is a window of a buffer, and a transfer moves evenly spaced bytes of one plane into a row
of another. Every access is checked against its plane: a transfer that leaves one has no result.
-/

namespace FrameEncoder

/-- A window of a buffer. -/
structure Plane where
  start : Nat
  size : Nat
deriving DecidableEq, Repr

namespace Plane

/-- The whole of a buffer. -/
def whole (b : ByteArray) : Plane := ⟨0, b.size⟩

/-- What follows the first `n` bytes of a buffer. -/
def after (n : Nat) (b : ByteArray) : Plane := ⟨n, b.size - n⟩

/-- The byte at an offset of a plane. -/
@[inline] def read? (p : Plane) (b : ByteArray) (i : Nat) : Option UInt8 :=
  if h : i < p.size ∧ p.start + i < b.size then some (b.get (p.start + i) h.2) else none

/-- Put a byte at an offset of a plane. -/
@[inline] def write? (p : Plane) (b : ByteArray) (i : Nat) (v : UInt8) : Option ByteArray :=
  if h : i < p.size ∧ p.start + i < b.size then some (b.set (p.start + i) v h.2) else none

/-- A byte is read exactly where the plane and its buffer have one. -/
theorem read?_eq_some_iff {p : Plane} {b : ByteArray} {i : Nat} {v : UInt8} :
    p.read? b i = some v ↔ i < p.size ∧ (Bytes.toList b)[p.start + i]? = some v := by
  by_cases h : i < p.size ∧ p.start + i < b.size
  · have hl : p.start + i < (Bytes.toList b).length := h.2
    have hr : p.read? b i = some (Bytes.toList b)[p.start + i] := dif_pos h
    rw [hr, List.getElem?_eq_getElem hl]
    exact ⟨fun hv => ⟨h.1, hv⟩, fun hv => hv.2⟩
  · have hr : p.read? b i = none := dif_neg h
    rw [hr]
    simp only [reduceCtorEq, false_iff, not_and]
    intro hi hv
    exact h ⟨hi, (List.getElem?_eq_some_iff.mp hv).1⟩

/-- A write changes the one byte at its offset. -/
theorem toList_of_write? {p : Plane} {b c : ByteArray} {i : Nat} {v : UInt8}
    (h : p.write? b i v = some c) :
    i < p.size ∧ p.start + i < b.size ∧
      Bytes.toList c = (Bytes.toList b).set (p.start + i) v := by
  unfold write? at h
  split at h
  · next hi =>
    cases h
    exact ⟨hi.1, hi.2, Array.toList_set b.data (p.start + i) v hi.2⟩
  · cases h

/-- A write keeps the size of the buffer. -/
theorem size_of_write? {p : Plane} {b c : ByteArray} {i : Nat} {v : UInt8}
    (h : p.write? b i v = some c) : c.size = b.size := by
  rw [← Bytes.length_toList, (toList_of_write? h).2.2, List.length_set, Bytes.length_toList]

end Plane

/-- A move of `count` bytes, read every `srcStep` bytes and written one after the other. -/
structure Transfer where
  source : Plane
  target : Plane
  src : Nat
  srcStep : Nat
  dst : Nat
  count : Nat
deriving DecidableEq, Repr

namespace Transfer

/-- Move `count` bytes from offset `s` of the source on to offset `d` of the target on. -/
def moveFrom (t : Transfer) (src : ByteArray) : (count s d : Nat) → ByteArray → Option ByteArray
  | 0, _, _, dst => some dst
  | count + 1, s, d, dst =>
    match t.source.read? src s with
    | none => none
    | some v =>
      match t.target.write? dst d v with
      | none => none
      | some dst => moveFrom t src count (s + t.srcStep) (d + 1) dst

/-- Carry out a transfer. -/
def run (t : Transfer) (src dst : ByteArray) : Option ByteArray :=
  t.moveFrom src t.count t.src t.dst dst

/-- Carry out transfers in order. -/
def runAll (src : ByteArray) : List Transfer → ByteArray → Option ByteArray
  | [], dst => some dst
  | t :: ts, dst =>
    match t.run src dst with
    | none => none
    | some dst => runAll src ts dst

/-- A transfer keeps the size of its target. -/
theorem size_of_moveFrom {t : Transfer} {src : ByteArray} {count s d : Nat} {dst out : ByteArray}
    (h : t.moveFrom src count s d dst = some out) : out.size = dst.size := by
  induction count generalizing s d dst with
  | zero =>
    cases h
    rfl
  | succ count ih =>
    unfold moveFrom at h
    split at h
    · cases h
    · split at h
      · cases h
      · next hw => rw [ih h, Plane.size_of_write? hw]

/-- Transfers keep the size of their target. -/
theorem size_of_runAll {src : ByteArray} {ts : List Transfer} {dst out : ByteArray}
    (h : runAll src ts dst = some out) : out.size = dst.size := by
  induction ts generalizing dst with
  | nil =>
    cases h
    rfl
  | cons t ts ih =>
    unfold runAll at h
    split at h
    · cases h
    · next hr => rw [ih h, size_of_moveFrom hr]

end Transfer

end FrameEncoder
