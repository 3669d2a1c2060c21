import FrameEncoder.Proofs.Pool.Preparation

/-!
# What a preparation asks of the library

Making a slot ready closes the slot's session if it asks for anything at all, then opens at most
one session, and closes that again if there is no memory for its scratch picture. Nothing else is
asked, and no session is used.
-/

namespace FrameEncoder

variable {P σ : Type}

namespace Pool

/-- What closes a session, if there is one. -/
def closing (session : Option SessionId) : List (EngineEvent P) :=
  session.toList.map .closed

/-- What is asked of a library to make a slot ready, given the number of sessions opened so far
and the slot's session: with the result, the number and the session afterwards. -/
inductive Asks (params : P) (opened : Nat) (old : Option SessionId) :
    Except BackendError ContextFlags → Nat → Option SessionId → List (EngineEvent P) → Prop
  | kept {flags : ContextFlags} : Asks params opened old (.ok flags) opened old []
  | emptied {flags : ContextFlags} : Asks params opened old (.ok flags) opened none (closing old)
  | refused {cause : EngineError} {width height : Nat} :
      Asks params opened old (.error (.contextCreate cause)) opened none
        (closing old ++ [.opened none width height params])
  /-- There is no memory for the scratch picture of the session. -/
  | withdrawn {bytes width height : Nat} :
      Asks params opened old (.error (.scratchAlloc bytes)) (opened + 1) none
        (closing old ++
          [.opened (some (opened + 1)) width height params, .closed (opened + 1)])
  | replaced {flags : ContextFlags} {width height : Nat} :
      Asks params opened old (.ok flags) (opened + 1) (some (opened + 1))
        (closing old ++ [.opened (some (opened + 1)) width height params])

namespace Asks

variable {params : P} {opened opened' : Nat} {old now : Option SessionId}
  {result : Except BackendError ContextFlags} {asked : List (EngineEvent P)}

/-- If anything is asked, the slot's session is closed first. -/
theorem eq_nil_or_closing (h : Asks params opened old result opened' now asked) :
    asked = [] ∨ ∃ rest, asked = closing old ++ rest := by
  cases h with
  | kept => exact .inl rfl
  | emptied => exact .inr ⟨[], (List.append_nil _).symm⟩
  | refused => exact .inr ⟨_, rfl⟩
  | withdrawn => exact .inr ⟨_, rfl⟩
  | replaced => exact .inr ⟨_, rfl⟩

/-- No session is used. -/
theorem encoded_not_mem (h : Asks params opened old result opened' now asked)
    (session : SessionId) (width height : Nat) (layout : PlaneLayout) (length : Nat) :
    .encoded session width height layout length ∉ asked := by
  intro hmem
  cases h <;> simp [closing] at hmem

/-- At most one session is opened. -/
theorem opened_le (h : Asks params opened old result opened' now asked) : opened ≤ opened' := by
  cases h <;> omega

/-- The slot keeps its session, has none, or has the one opened last. -/
theorem now_eq (h : Asks params opened old result opened' now asked) :
    now = old ∨ now = none ∨ now = some (opened + 1) ∧ opened' = opened + 1 := by
  cases h with
  | kept => exact .inl rfl
  | emptied => exact .inr (.inl rfl)
  | refused => exact .inr (.inl rfl)
  | withdrawn => exact .inr (.inl rfl)
  | replaced => exact .inr (.inr ⟨rfl, rfl⟩)

/-- For want of memory the session that was opened last is closed. -/
theorem eq_of_scratchAlloc {bytes : Nat}
    (h : Asks params opened old (.error (.scratchAlloc bytes)) opened' now asked) :
    ∃ before session width height,
      asked = before ++ [.opened (some session) width height params, .closed session] := by
  cases h with
  | withdrawn => exact ⟨_, _, _, _, rfl⟩

end Asks

variable {E : Engine P σ} {h host : Host P σ} {s t : Slot} {params : P}

/-- Destroying a slot closes its session. -/
theorem events_destroy (h : Host P σ) (s : Slot) :
    (destroy h s).1.events = h.events ++ closing s.session := by
  unfold destroy closing
  cases s.session with
  | none => exact (List.append_nil _).symm
  | some session => rfl

/-- Opening a context asks for a session, and closes it if there is no memory. -/
theorem asks_openContext {result : Except BackendError Context} {width height : Int32}
    (ho : openContext E h width height params = (result, host)) (old : Option SessionId)
    (flags : ContextFlags) :
    ∃ asked, host.events = h.events ++ asked ∧
      Asks params h.opened old (result.map fun _ => flags) host.opened
        (result.toOption.map Context.session) (closing old ++ asked) := by
  unfold openContext Engine.openIn at ho
  split at ho
  · next hopen =>
    split at hopen
    · obtain ⟨-, rfl⟩ := Prod.mk.inj hopen
      obtain ⟨rfl, rfl⟩ := Prod.mk.inj ho
      exact ⟨_, rfl, .refused⟩
    · cases hopen
  · next hopen =>
    split at hopen
    · cases hopen
    · obtain ⟨hsession, rfl⟩ := Prod.mk.inj hopen
      obtain rfl := Except.ok.inj hsession
      simp only at ho
      split at ho
      · next halloc =>
        obtain ⟨-, rfl⟩ := Prod.mk.inj halloc
        obtain ⟨rfl, rfl⟩ := Prod.mk.inj ho
        exact ⟨_, rfl, .replaced⟩
      · next halloc =>
        obtain ⟨-, rfl⟩ := Prod.mk.inj halloc
        obtain ⟨rfl, rfl⟩ := Prod.mk.inj ho
        exact ⟨_, List.append_assoc .., .withdrawn⟩

/-- Making a slot ready asks for nothing else. -/
theorem Prepared.asks {width height : Int32} {result : Except BackendError ContextFlags}
    (hp : Prepared E h s width height params (result, host, t)) :
    ∃ asked, host.events = h.events ++ asked ∧
      Asks params h.opened s.session result host.opened t.session asked := by
  cases hp with
  | kept hfits => exact ⟨[], (List.append_nil _).symm, .kept⟩
  | emptied hfits hsize =>
    rw [opened_destroy]
    exact ⟨_, events_destroy h s, .emptied⟩
  | refused hfits hsize hopen =>
    obtain ⟨asked, hevents, hasks⟩ := asks_openContext hopen s.session .none
    rw [opened_destroy] at hasks
    rw [events_destroy, List.append_assoc] at hevents
    exact ⟨_, hevents, hasks⟩
  | opened hfits hsize hopen =>
    obtain ⟨asked, hevents, hasks⟩ := asks_openContext hopen s.session ⟨true, s.isLive⟩
    rw [opened_destroy] at hasks
    rw [events_destroy, List.append_assoc] at hevents
    exact ⟨_, hevents, hasks⟩

end Pool

end FrameEncoder
