import FrameEncoder.Bitstream
import FrameEncoder.Error
import FrameEncoder.Picture

/-!
# Codec engines

The seam between the encoder and a codec library. An engine opens sessions, and a session turns
pictures into coded output. What a library answers is a function of a state of its own, so an
engine may be a real library, an absent one or a script.

The host of an engine numbers the sessions that were opened and records what was asked of the
library, in order.
-/

namespace FrameEncoder

/-- The number of an open session, from one. -/
abbrev SessionId := Nat

/-- What a session makes of a picture. -/
inductive SessionReply where
  | output (output : CodedOutput)
  | failed (error : EngineError)
  /-- The library crashed; the thread that called it is lost. -/
  | crashed

/-- A codec library with parameters `P` and a state `σ`, and the memory it works in. -/
structure Engine (P σ : Type) where
  name : String
  /-- Whether the library is part of the program at all. -/
  linked : Bool
  /-- Open a session for pictures of a given size. -/
  openSession : σ → (width height : Nat) → P → Except EngineError Unit × σ
  /-- Encode one picture with an open session. -/
  encode : σ → SessionId → Picture → SessionReply × σ
  /-- Whether there is memory for a scratch picture of so many bytes. -/
  allocate : σ → Nat → Bool × σ

/-- One thing asked of a library. -/
inductive EngineEvent (P : Type) where
  /-- An attempt to open a session; a failed one has no number. -/
  | opened (session : Option SessionId) (width height : Nat) (params : P)
  | encoded (session : SessionId) (width height : Nat) (layout : PlaneLayout) (length : Nat)
  | closed (session : SessionId)

/-- A library in use: its state, the number of sessions opened so far and all that was asked. -/
structure Host (P σ : Type) where
  state : σ
  opened : Nat
  events : List (EngineEvent P)

namespace Host

variable {P σ : Type}

/-- A library nothing was asked of yet. -/
def fresh (state : σ) : Host P σ := ⟨state, 0, []⟩

/-- Record something asked of the library. -/
def record (h : Host P σ) (e : EngineEvent P) : Host P σ := { h with events := h.events ++ [e] }

/-- Close a session. -/
def close (h : Host P σ) (session : SessionId) : Host P σ := h.record (.closed session)

end Host

namespace Engine

variable {P σ : Type} (E : Engine P σ)

/-- Open a session and number it. -/
def openIn (h : Host P σ) (width height : Nat) (params : P) :
    Except EngineError SessionId × Host P σ :=
  match E.openSession h.state width height params with
  | (.error e, state) => (.error e, { h with state }.record (.opened none width height params))
  | (.ok (), state) =>
    let session := h.opened + 1
    (.ok session,
      { h with state, opened := session }.record (.opened (some session) width height params))

/-- Encode a picture with an open session. -/
def encodeIn (h : Host P σ) (session : SessionId) (p : Picture) : SessionReply × Host P σ :=
  let h := h.record (.encoded session p.width p.height p.layout p.data.size)
  let (reply, state) := E.encode h.state session p
  (reply, { h with state })

/-- Ask for the memory of a scratch picture. -/
def allocateIn (h : Host P σ) (bytes : Nat) : Bool × Host P σ :=
  let (granted, state) := E.allocate h.state bytes
  (granted, { h with state })

/-- Whether a minimal session can be opened; a library that is not there is not asked. -/
def selfTest [Inhabited P] (h : Host P σ) : Bool × Host P σ :=
  if E.linked then
    match E.openIn h 16 16 default with
    | (.ok session, h) => (true, h.close session)
    | (.error _, h) => (false, h)
  else (false, h)

/-- The engine of a library that is not part of the program. -/
def unlinked (P : Type) (name : String) : Engine P Unit where
  name
  linked := false
  openSession s _ _ _ := (.error (.unlinked name), s)
  encode s _ _ := (.failed (.unlinked name), s)
  allocate s _ := (true, s)

/-- How an absent engine is shown to developers. -/
def unlinkedDebug (name : String) : String := "UnlinkedEngine(\"" ++ name ++ "\")"

end Engine

end FrameEncoder
