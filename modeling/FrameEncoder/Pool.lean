import FrameEncoder.Engine
import FrameEncoder.Rect

/-!
# Encoder contexts by channel

A fixed table of sixteen slots, which channels share by their number modulo sixteen. A slot owns
at most one session, and the scratch picture that session encodes from. A slot that is asked for
another size is closed and opened anew; sessions are never resized.
-/

namespace FrameEncoder

/-- What an encode call did to the contexts of its slot. -/
structure ContextFlags where
  created : Bool
  destroyed : Bool
deriving DecidableEq, Repr

namespace ContextFlags

/-- Nothing was created or destroyed. -/
def none : ContextFlags := ⟨false, false⟩

instance : Inhabited ContextFlags := ⟨none⟩

/-- The flags as bits: one for a creation, two for a destruction. -/
def bits (f : ContextFlags) : Nat := (if f.created then 1 else 0) + (if f.destroyed then 2 else 0)

/-- The flags of two bits; other bits are ignored. -/
def ofBits (n : Nat) : ContextFlags := ⟨n.testBit 0, n.testBit 1⟩

end ContextFlags

/-- An encoder context: an open session and its scratch picture. -/
structure Context where
  session : SessionId
  scratch : ByteArray

/-- One place for a context, with the region size it was last made ready for. -/
structure Slot where
  session : Option SessionId
  scratch : ByteArray
  width : Int32
  height : Int32

namespace Slot

/-- A slot nothing was asked of yet. -/
def empty : Slot := ⟨none, .empty, 0, 0⟩

instance : Inhabited Slot := ⟨empty⟩

/-- Whether a slot has a session. -/
def isLive (s : Slot) : Bool := s.session.isSome

/-- The session and the scratch picture of a live slot. -/
def context (s : Slot) : Option Context := s.session.map fun session => ⟨session, s.scratch⟩

/-- The bytes of the scratch picture. -/
def scratchLength (s : Slot) : Nat := s.scratch.size

/-- A slot that has lost its session and its scratch picture. -/
def emptied (s : Slot) : Slot := { s with session := none, scratch := .empty }

/-- Whether a slot has a context for a given size. -/
def fits (s : Slot) (width height : Int32) : Bool :=
  s.isLive && s.width == width && s.height == height

/-- How a slot is shown to developers. -/
def debug (s : Slot) : String :=
  "Slot \x7b live: " ++ toString s.isLive ++ ", width: " ++ toString s.width.toInt ++
    ", height: " ++ toString s.height.toInt ++ ", scratch_len: " ++ toString s.scratchLength ++
    " \x7d"

end Slot

/-- Round up to the next multiple of sixteen, the size of a macroblock. -/
def alignTo16 (n : Nat) : Nat := (n + 15) / 16 * 16

/-- The number of slots. -/
abbrev poolCapacity : Nat := 16

/-- The slot of a channel. -/
def slotIndex (channel : UInt32) : Fin poolCapacity :=
  ⟨channel.toNat % poolCapacity, Nat.mod_lt _ (by decide)⟩

/-- The padded form of a region extent. -/
def paddedExtent (n : Int32) : Nat := alignTo16 n.toInt.toNat

/-- The bytes of the scratch picture of a region: two for each padded pixel. -/
def scratchBytes (width height : Int32) : Nat := paddedExtent width * paddedExtent height * 2

/-- The slots of one encoder. -/
structure Pool where
  slots : Vector Slot poolCapacity

namespace Pool

/-- A pool without contexts. -/
def empty : Pool := ⟨Vector.replicate poolCapacity .empty⟩

/-- The slot of a number. -/
def get (p : Pool) (i : Fin poolCapacity) : Slot := p.slots[i]

/-- The slot of a channel. -/
def slot (p : Pool) (channel : UInt32) : Slot := p.get (slotIndex channel)

/-- Replace the slot of a channel. -/
def setSlot (p : Pool) (channel : UInt32) (s : Slot) : Pool :=
  ⟨p.slots.set (slotIndex channel).val s (slotIndex channel).isLt⟩

/-- Replace the scratch picture of a live slot. -/
def setScratch (p : Pool) (channel : UInt32) (scratch : ByteArray) : Pool :=
  let s := p.slot channel
  if s.isLive then p.setSlot channel { s with scratch } else p

/-- The number of live slots. -/
def liveCount (p : Pool) : Nat := p.slots.toList.countP Slot.isLive

variable {P σ : Type} (E : Engine P σ)

/-- Drop the scratch picture of a slot, and close its session if it has one. -/
def destroy (h : Host P σ) (s : Slot) : Host P σ × Slot :=
  match s.session with
  | some session => (h.close session, s.emptied)
  | none => (h, s.emptied)

/-- Open a context for a region of positive size. A session without memory for its scratch
picture is closed at once. -/
def openContext (h : Host P σ) (width height : Int32) (params : P) :
    Except BackendError Context × Host P σ :=
  match E.openIn h (paddedExtent width) (paddedExtent height) params with
  | (.error e, h) => (.error (.contextCreate e), h)
  | (.ok session, h) =>
    let bytes := scratchBytes width height
    match E.allocateIn h bytes with
    | (true, h) => (.ok ⟨session, Bytes.zeros bytes⟩, h)
    | (false, h) => (.error (.scratchAlloc bytes), h.close session)

/-- Make a slot ready for a region size. A context of that size is kept; any other is destroyed,
and one for the new size is opened unless the region is empty. After a failure the slot is
without a context and still bears its old size. -/
def prepareSlot (h : Host P σ) (s : Slot) (width height : Int32) (params : P) :
    Except BackendError ContextFlags × Host P σ × Slot :=
  if s.fits width height then (.ok .none, h, s) else
    let destroyed := s.isLive
    let (h, s) := destroy h s
    if width > 0 ∧ height > 0 then
      match openContext E h width height params with
      | (.ok c, h) => (.ok ⟨true, destroyed⟩, h, ⟨some c.session, c.scratch, width, height⟩)
      | (.error e, h) => (.error e, h, s)
    else (.ok ⟨false, destroyed⟩, h, { s with width, height })

/-- Make the slot of a channel ready for a region size. -/
def prepare (h : Host P σ) (p : Pool) (channel : UInt32) (width height : Int32) (params : P) :
    Except BackendError ContextFlags × Host P σ × Pool :=
  let (r, h, s) := prepareSlot E h (p.slot channel) width height params
  (r, h, p.setSlot channel s)

/-- Destroy every context, in slot order. -/
def clear (h : Host P σ) (p : Pool) : Host P σ × Pool :=
  (p.slots.toList.foldl (fun h s => (destroy h s).1) h,
    ⟨p.slots.map Slot.emptied⟩)

end Pool

/-- Padding never makes a size smaller, and reaches a multiple of sixteen. -/
theorem le_alignTo16 (n : Nat) : n ≤ alignTo16 n ∧ alignTo16 n % 16 = 0 := by
  unfold alignTo16
  omega

end FrameEncoder
