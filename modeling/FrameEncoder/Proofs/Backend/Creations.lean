import FrameEncoder.Proofs.Backend.Calls
import FrameEncoder.Proofs.Pool.Asks

/-!
# Contexts created and destroyed by a call

Sessions are numbered as they are opened, and no context has a session of a higher number. So a
call has created a context if afterwards one has a session opened since, and has destroyed one if a
slot has lost its session. The flags of a call that succeeds say just that. A call that fails after
its slot was made ready may have done the same, and its reply bears no flags.
-/

namespace FrameEncoder

namespace Slot

/-- Whether a slot has no session that is yet to be opened. -/
def IsNumbered (s : Slot) (opened : Nat) : Prop := ∀ session ∈ s.session, session ≤ opened

/-- A slot that is numbered has no new session. -/
theorem IsNumbered.any_lt_eq_false {s : Slot} {opened : Nat} (h : s.IsNumbered opened) :
    s.session.any (opened < ·) = false := by
  cases hx : s.session with
  | none => rfl
  | some x => exact decide_eq_false (Nat.not_lt.mpr (h x hx))

/-- A slot has not lost a session it has. -/
theorem any_ne_self (s : Slot) : s.session.any (s.session ≠ some ·) = false := by
  cases s.session <;> simp

end Slot

variable {P σ : Type}

namespace Pool

variable {E : Engine P σ} {h host : Host P σ} {s t : Slot} {width height : Int32} {params : P}

/-- Whether no context has a session that is yet to be opened. -/
def IsNumbered (p : Pool) (opened : Nat) : Prop := ∀ i, (p.get i).IsNumbered opened

/-- Sessions are opened one after the other, if an attempt succeeds at all. -/
theorem opened_le_openIn {result : Except EngineError SessionId} {width height : Nat}
    (ho : E.openIn h width height params = (result, host)) : h.opened ≤ host.opened := by
  unfold Engine.openIn at ho
  split at ho
  · obtain ⟨-, rfl⟩ := Prod.mk.inj ho
    exact Nat.le_refl _
  · obtain ⟨-, rfl⟩ := Prod.mk.inj ho
    exact Nat.le_succ _

/-- A prepared slot has no session yet to be opened. -/
theorem Prepared.isNumbered {result : Except BackendError ContextFlags}
    (hp : Prepared E h s width height params (result, host, t)) (hs : s.IsNumbered h.opened) :
    t.IsNumbered host.opened := by
  intro session hsession
  obtain ⟨asked, -, hasks⟩ := hp.asks
  rcases hasks.now_eq with heq | heq | ⟨heq, hopened⟩
  · exact Nat.le_trans (hs session (heq ▸ hsession)) hasks.opened_le
  · rw [heq] at hsession
    cases hsession
  · rw [heq] at hsession
    obtain rfl := Option.some.inj hsession
    exact Nat.le_of_eq hopened.symm

/-- The flags of a preparation say whether the slot's session is new, and whether the one before
is gone. -/
theorem Prepared.flags_eq {flags : ContextFlags}
    (hp : Prepared E h s width height params (.ok flags, host, t)) (hs : s.IsNumbered h.opened) :
    flags = ⟨t.session.any (h.opened < ·), s.session.any (t.session ≠ some ·)⟩ := by
  cases hp with
  | kept hfits =>
    rw [hs.any_lt_eq_false, Slot.any_ne_self]
    rfl
  | emptied hfits hsize =>
    rw [Slot.isLive]
    cases s.session <;> rfl
  | @opened hfits hsize c _ hopen =>
    obtain ⟨rfl, -⟩ := openContext_eq_ok hopen
    rw [opened_destroy, Slot.isLive]
    cases hx : s.session with
    | none => simp
    | some x =>
      have hnew : h.opened + 1 ≠ x := Nat.ne_of_gt (Nat.lt_succ_of_le (hs x hx))
      simp [hnew]

/-- Replacing a slot by a numbered one keeps a pool numbered, as more sessions are opened. -/
theorem IsNumbered.setSlot {p : Pool} {opened opened' : Nat} (hp : p.IsNumbered opened)
    (hle : opened ≤ opened') (channel : UInt32) (ht : t.IsNumbered opened') :
    (p.setSlot channel t).IsNumbered opened' := by
  intro i
  by_cases hi : slotIndex channel = i
  · subst hi
    rw [get_setSlot_self]
    exact ht
  · rw [get_setSlot_of_ne hi]
    exact fun session hsession => Nat.le_trans (hp i session hsession) hle

/-- Another scratch picture is another one for the same session. -/
theorem session_setScratch (p : Pool) (channel : UInt32) (scratch : ByteArray)
    (i : Fin poolCapacity) :
    ((p.setScratch channel scratch).get i).session = (p.get i).session := by
  unfold setScratch
  simp only
  split
  · by_cases hi : slotIndex channel = i
    · subst hi
      rw [get_setSlot_self]
      rfl
    · rw [get_setSlot_of_ne hi]
  · rfl

/-- A cleared pool has no sessions. -/
theorem session_clear (h : Host P σ) (p : Pool) (i : Fin poolCapacity) :
    ((clear h p).2.get i).session = none := by
  rw [get_clear]
  rfl

end Pool

namespace H264State

/-- Whether a context has a session that was opened since. -/
def created (before after : H264State P σ) : Bool :=
  (List.finRange poolCapacity).any fun i =>
    (after.pool.get i).session.any (before.host.opened < ·)

/-- Whether a slot has lost the session of its context since. -/
def destroyed (before after : H264State P σ) : Bool :=
  (List.finRange poolCapacity).any fun i =>
    (before.pool.get i).session.any ((after.pool.get i).session ≠ some ·)

/-- What became of the contexts since. -/
def changes (before after : H264State P σ) : ContextFlags :=
  ⟨created before after, destroyed before after⟩

/-- Whether no context has a session that is yet to be opened. -/
def IsNumbered (s : H264State P σ) : Prop := s.pool.IsNumbered s.host.opened

/-- What holds of one slot alone holds of some slot exactly if it holds of that one. -/
theorem any_finRange_eq {f : Fin poolCapacity → Bool} {i : Fin poolCapacity}
    (h : ∀ j, i ≠ j → f j = false) : (List.finRange poolCapacity).any f = f i := by
  rw [Bool.eq_iff_iff, List.any_eq_true]
  constructor
  · rintro ⟨j, -, hj⟩
    by_cases hij : i = j
    · rw [hij]
      exact hj
    · exact absurd ((h j hij).symm.trans hj) Bool.false_ne_true
  · exact fun hi => ⟨i, List.mem_finRange i, hi⟩

/-- If the contexts of one slot at most changed, what became of them all is what became of its. -/
theorem changes_eq_of_slot {s t : H264State P σ} (hs : s.IsNumbered) {i : Fin poolCapacity}
    (h : ∀ j, i ≠ j → (t.pool.get j).session = (s.pool.get j).session) :
    changes s t = ⟨(t.pool.get i).session.any (s.host.opened < ·),
      (s.pool.get i).session.any ((t.pool.get i).session ≠ some ·)⟩ := by
  have hcreated : created s t = (t.pool.get i).session.any (s.host.opened < ·) := by
    refine any_finRange_eq fun j hj => ?_
    rw [h j hj]
    exact (hs j).any_lt_eq_false
  have hdestroyed : destroyed s t =
      (s.pool.get i).session.any ((t.pool.get i).session ≠ some ·) := by
    refine any_finRange_eq fun j hj => ?_
    rw [h j hj]
    exact Slot.any_ne_self _
  rw [changes, hcreated, hdestroyed]

/-- What became of the contexts is told by their sessions afterwards. -/
theorem changes_congr (s : H264State P σ) {t u : H264State P σ}
    (h : ∀ i, (t.pool.get i).session = (u.pool.get i).session) : changes s t = changes s u := by
  simp only [changes, created, destroyed, h]

end H264State

namespace H264Backend

variable {B : H264Backend P σ}

/-- A backend nothing was asked of has no session at all. -/
theorem isNumbered_fresh (state : σ) : (fresh state : H264State P σ).IsNumbered := by
  intro i session hsession
  rw [show (fresh state : H264State P σ).pool = Pool.empty from rfl, Pool.get_empty] at hsession
  cases hsession

/-- Destroying every context leaves none with a session. -/
theorem isNumbered_release (s : H264State P σ) : (release s).IsNumbered := by
  intro i session hsession
  rw [show (release s).pool = (Pool.clear s.host s.pool).2 from rfl, Pool.session_clear]
    at hsession
  cases hsession

/-- A preparation keeps a backend numbered, and opens no number twice. -/
theorem isNumbered_of_prepare {s : H264State P σ} (hs : s.IsNumbered) {r : EncodeRequest}
    {result : Except BackendError ContextFlags} {host : Host P σ} {pool : Pool}
    (hprepare : B.prepare s r = (result, host, pool)) : pool.IsNumbered host.opened := by
  obtain ⟨hprepared, hpool⟩ := prepared_of_prepare hprepare
  obtain ⟨asked, -, hasks⟩ := hprepared.asks
  rw [hpool]
  exact hs.setSlot hasks.opened_le r.channelId
    (hprepared.isNumbered (hs (slotIndex r.channelId)))

/-- The flags of a preparation say what became of the contexts. -/
theorem flags_eq_of_prepare {s : H264State P σ} (hs : s.IsNumbered) {r : EncodeRequest}
    {flags : ContextFlags} {host : Host P σ} {pool : Pool}
    (hprepare : B.prepare s r = (.ok flags, host, pool)) :
    flags = H264State.changes s ⟨pool, host⟩ := by
  obtain ⟨hprepared, hpool⟩ := prepared_of_prepare hprepare
  rw [H264State.changes_eq_of_slot hs (i := slotIndex r.channelId) fun j hj => ?_]
  · exact hprepared.flags_eq (hs (slotIndex r.channelId))
  · show (pool.get j).session = _
    rw [hpool, Pool.get_setSlot_of_ne hj]

/-- A picture that was encoded is replied to with the flags of the call so far. -/
theorem flags_eq_of_encodePicture {s : H264State P σ} {session : SessionId} {picture : Picture}
    {flags : ContextFlags} {dest : ByteArray} {o : EncodeOutcome}
    (h : (B.encodePicture s session picture flags dest).1 = .done o) : o.flags = flags := by
  unfold encodePicture at h
  split at h
  · cases h
  · cases h
  · cases h
  · split at h
    · cases h
      rfl
    · cases h

/-- Encoding a picture touches no session. -/
theorem session_encodePicture (s : H264State P σ) (session : SessionId) (picture : Picture)
    (flags : ContextFlags) (dest : ByteArray) (i : Fin poolCapacity) :
    (((B.encodePicture s session picture flags dest).2.2).pool.get i).session =
      (s.pool.get i).session := by
  rw [pool_encodePicture]

/-- A call keeps a backend numbered. -/
theorem isNumbered_encode {s : H264State P σ} (hs : s.IsNumbered) (r : EncodeRequest)
    (dest : ByteArray) : (B.encode s r dest).2.2.IsNumbered := by
  have hcases := encoded_encode B s r dest
  generalize B.encode s r dest = out at hcases ⊢
  cases hcases with
  | rejected hinvalid => exact hs
  | unprepared hvalid hprepare => exact isNumbered_of_prepare hs hprepare
  | idle hvalid hprepare hidle => exact isNumbered_of_prepare hs hprepare
  | uncopied hvalid hprepare hcontext hdata hcopy => exact isNumbered_of_prepare hs hprepare
  | @handed hvalid flags host pool hprepare c hcontext hdata scratch hcopy =>
    intro i session hsession
    rw [session_encodePicture, Pool.session_setScratch] at hsession
    rw [pool_encodePicture]
    exact isNumbered_of_prepare hs hprepare i session hsession

/-- The flags of a call that succeeds say what became of the contexts. -/
theorem flags_eq_of_done {s : H264State P σ} (hs : s.IsNumbered) {r : EncodeRequest}
    {dest : ByteArray} {o : EncodeOutcome} (h : (B.encode s r dest).1 = .done o) :
    o.flags = H264State.changes s (B.encode s r dest).2.2 := by
  have hcases := encoded_encode B s r dest
  generalize B.encode s r dest = out at hcases h ⊢
  cases hcases with
  | rejected hinvalid => cases h
  | unprepared hvalid hprepare => cases h
  | idle hvalid hprepare hidle =>
    cases h
    exact flags_eq_of_prepare hs hprepare
  | uncopied hvalid hprepare hcontext hdata hcopy => cases h
  | handed hvalid hprepare hcontext hdata hcopy =>
    rw [flags_eq_of_encodePicture h, flags_eq_of_prepare hs hprepare]
    refine H264State.changes_congr s fun i => ?_
    rw [session_encodePicture, Pool.session_setScratch]

/-- A test of the library opens a session that no context has. -/
theorem isNumbered_selfTest [Inhabited P] {s : H264State P σ} (hs : s.IsNumbered) :
    (B.selfTest s).2.IsNumbered := by
  have hle : s.host.opened ≤ (B.engine.selfTest s.host).2.opened := by
    unfold Engine.selfTest
    split
    · split
      · next host hopen => exact (Pool.opened_le_openIn hopen : s.host.opened ≤ host.opened)
      · next hopen => exact Pool.opened_le_openIn hopen
    · exact Nat.le_refl _
  exact fun i session hsession => Nat.le_trans (hs i session hsession) hle

/-- A backend in a state it can be in is numbered. -/
theorem Reachable.isNumbered [Inhabited P] {s : H264State P σ} (hs : B.Reachable s) :
    s.IsNumbered := by
  induction hs with
  | fresh state => exact isNumbered_fresh state
  | selfTest _ ih => exact isNumbered_selfTest ih
  | encode r dest _ ih => exact isNumbered_encode ih r dest
  | @release s _ _ => exact isNumbered_release s

end H264Backend

end FrameEncoder
