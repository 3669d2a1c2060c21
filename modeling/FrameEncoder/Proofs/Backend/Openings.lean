import FrameEncoder.Proofs.Backend.Calls
import FrameEncoder.Proofs.Pool.Asks

/-!
# The parameters sessions are opened with

An encode call asks the library for at most one session, and with nothing but the record that its
table has for the class the request is tuned for.
-/

namespace FrameEncoder

variable {P σ : Type}

/-- Whether every session that was asked for was asked for with given parameters. -/
def OpensWith (params : P) (events : List (EngineEvent P)) : Prop :=
  ∀ session width height p, .opened session width height p ∈ events → p = params

/-- Whether what is asked of a library since opens no session with other parameters. -/
def Host.Continues (params : P) (h host : Host P σ) : Prop :=
  ∃ asked, host.events = h.events ++ asked ∧ OpensWith params asked

namespace Host

variable {params : P} {h host later : Host P σ}

/-- Nothing asked opens nothing. -/
theorem Continues.of_events_eq (heq : host.events = h.events) : Continues params h host :=
  ⟨[], by rw [heq, List.append_nil], fun _ _ _ _ hp => absurd hp List.not_mem_nil⟩

/-- What is asked first and what is asked then is asked. -/
theorem Continues.trans (hfirst : Continues params h host) (hthen : Continues params host later) :
    Continues params h later := by
  obtain ⟨asked, heq, hopens⟩ := hfirst
  obtain ⟨asked', heq', hopens'⟩ := hthen
  refine ⟨asked ++ asked', by rw [heq', heq, List.append_assoc], ?_⟩
  intro session width height p hp
  rcases List.mem_append.mp hp with hp | hp
  · exact hopens session width height p hp
  · exact hopens' session width height p hp

/-- Anything may be asked but a session with other parameters. -/
theorem continues_record (h : Host P σ) {e : EngineEvent P}
    (he : ∀ session width height p, e = .opened session width height p → p = params) :
    Continues params h (h.record e) := by
  refine ⟨[e], rfl, fun session width height p hp => ?_⟩
  exact he session width height p (List.mem_singleton.mp hp).symm

end Host

namespace Pool

variable {E : Engine P σ} {h host : Host P σ} {s t : Slot} {params : P}

/-- Making a slot ready asks for no session but with the parameters given. -/
theorem Asks.opensWith {opened opened' : Nat} {old now : Option SessionId}
    {result : Except BackendError ContextFlags} {asked : List (EngineEvent P)}
    (ha : Asks params opened old result opened' now asked) : OpensWith params asked := by
  intro session width height p hp
  cases ha with
  | kept => cases hp
  | emptied => simp [closing] at hp
  | refused | withdrawn | replaced =>
    simp only [closing, List.mem_append, List.mem_map, Option.mem_toList, reduceCtorEq, and_false,
      exists_const, List.mem_cons, EngineEvent.opened.injEq, List.not_mem_nil, or_self, or_false,
      false_or] at hp
    exact hp.2.2.2

/-- A slot is made ready with the parameters given. -/
theorem Prepared.continues {width height : Int32} {result : Except BackendError ContextFlags}
    (hp : Prepared E h s width height params (result, host, t)) : h.Continues params host := by
  obtain ⟨asked, hevents, hasks⟩ := hp.asks
  exact ⟨asked, hevents, hasks.opensWith⟩

end Pool

namespace H264Backend

/-- An encode call opens sessions with the record for the class of its request alone. -/
theorem continues_encode (B : H264Backend P σ) (s : H264State P σ) (r : EncodeRequest)
    (dest : ByteArray) :
    s.host.Continues (B.table.forEncode r.tuningClass) (B.encode s r dest).2.2.host := by
  have hcases := encoded_encode B s r dest
  generalize B.encode s r dest = out at hcases ⊢
  cases hcases with
  | rejected hinvalid => exact .of_events_eq rfl
  | unprepared hvalid hprepare => exact (prepared_of_prepare hprepare).1.continues
  | idle hvalid hprepare hidle => exact (prepared_of_prepare hprepare).1.continues
  | uncopied hvalid hprepare hcontext hdata hcopy =>
    exact (prepared_of_prepare hprepare).1.continues
  | handed hvalid hprepare hcontext hdata hcopy =>
    rw [pool_encodePicture]
    exact (prepared_of_prepare hprepare).1.continues.trans (Host.continues_record _ nofun)

/-- If a table was made from a function, an encode call opens sessions with the value of the class
that the connection of its request counts as. -/
theorem continues_encode_of_table_eq {B : H264Backend P σ} {f : ConnectionClass → P}
    (htable : B.table = .ofFun f) (s : H264State P σ) (r : EncodeRequest) (dest : ByteArray) :
    s.host.Continues (f (.clampForEncode r.connection.wire)) (B.encode s r dest).2.2.host := by
  have hopens := B.continues_encode s r dest
  have htuned := (ConnectionClass.clampForEncode_mem_tuned r.connection.wire).1
  rwa [htable, EncodeRequest.tuningClass, ParamTable.forEncode_ofFun _ _ htuned] at hopens

end H264Backend

end FrameEncoder
