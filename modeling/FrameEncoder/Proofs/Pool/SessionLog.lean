import FrameEncoder.Proofs.Backend.Creations
import FrameEncoder.Proofs.Folds
import Mathlib.Data.List.Induction
import Mathlib.Data.List.Nodup

/-!
# The log of sessions

What is asked of a library is read as a log of sessions that are opened, used and closed. A log is
in order if it opens no session that is open, and uses and closes none that is not. Making a slot
ready closes its session, opens one, and closes that again if there is no memory for its scratch
picture. So the log stays in order, and the sessions it leaves open are those of the slots.
-/

namespace FrameEncoder

variable {P σ : Type}

namespace EngineEvent

/-- The session that was opened, if one was. -/
def opened? : EngineEvent P → Option SessionId
  | opened session _ _ _ => session
  | _ => none

/-- The session that was closed, if one was. -/
def closed? : EngineEvent P → Option SessionId
  | closed session => some session
  | _ => none

/-- The open sessions after an event, given those before it. There are none to tell if a session
is opened that is open already, or one is used or closed that is not. -/
def follow (live : List SessionId) : EngineEvent P → Option (List SessionId)
  | opened none _ _ _ => some live
  | opened (some session) _ _ _ => if session ∈ live then none else some (session :: live)
  | encoded session _ _ _ _ => if session ∈ live then some live else none
  | closed session => if session ∈ live then some (live.erase session) else none

/-- An event adds the session it opens to the open ones and takes away the one it closes. -/
theorem count_follow {live live' : List SessionId} {e : EngineEvent P}
    (h : follow live e = some live') (n : SessionId) :
    live.count n + e.opened?.toList.count n = e.closed?.toList.count n + live'.count n := by
  cases e with
  | opened session width height params =>
    cases session with
    | none =>
      cases h
      exact Nat.add_comm ..
    | some session =>
      obtain ⟨-, heq⟩ := Option.ite_none_left_eq_some.mp h
      obtain rfl := Option.some.inj heq
      simp [opened?, closed?, List.count_cons]
  | encoded session width height layout length =>
    obtain ⟨-, heq⟩ := Option.ite_none_right_eq_some.mp h
    obtain rfl := Option.some.inj heq
    exact Nat.add_comm ..
  | closed session =>
    obtain ⟨hmem, heq⟩ := Option.ite_none_right_eq_some.mp h
    obtain rfl := Option.some.inj heq
    have hcount := (List.perm_cons_erase hmem).count_eq n
    simp only [List.count_cons] at hcount
    simp only [opened?, closed?, Option.toList_none, Option.toList_some, List.count_nil,
      List.count_singleton, hcount]
    omega

/-- No session is open twice. -/
theorem nodup_follow {live live' : List SessionId} {e : EngineEvent P}
    (h : follow live e = some live') (hlive : live.Nodup) : live'.Nodup := by
  cases e with
  | opened session width height params =>
    cases session with
    | none =>
      cases h
      exact hlive
    | some session =>
      obtain ⟨hnot, heq⟩ := Option.ite_none_left_eq_some.mp h
      obtain rfl := Option.some.inj heq
      exact List.nodup_cons.mpr ⟨hnot, hlive⟩
  | encoded session width height layout length =>
    obtain ⟨-, heq⟩ := Option.ite_none_right_eq_some.mp h
    obtain rfl := Option.some.inj heq
    exact hlive
  | closed session =>
    obtain ⟨-, heq⟩ := Option.ite_none_right_eq_some.mp h
    obtain rfl := Option.some.inj heq
    exact hlive.erase session

end EngineEvent

/-- The open sessions after the events of a log, if it is in order. -/
def openSessions (events : List (EngineEvent P)) : Option (List SessionId) :=
  events.foldlM EngineEvent.follow []

/-- A log that is in order goes on from the sessions it left open. -/
theorem openSessions_append {events : List (EngineEvent P)} {live : List SessionId}
    (h : openSessions events = some live) (asked : List (EngineEvent P)) :
    openSessions (events ++ asked) = asked.foldlM EngineEvent.follow live := by
  unfold openSessions at h ⊢
  rw [List.foldlM_append, h]
  rfl

/-- In a log that is in order, the sessions that were opened are those that were closed and those
still open, and none of them is open twice. -/
theorem count_openSessions {events : List (EngineEvent P)} {live : List SessionId}
    (h : openSessions events = some live) :
    live.Nodup ∧ ∀ n, (events.filterMap EngineEvent.opened?).count n =
      (events.filterMap EngineEvent.closed?).count n + live.count n := by
  induction events using List.reverseRecOn generalizing live with
  | nil =>
    cases h
    exact ⟨List.nodup_nil, fun n => rfl⟩
  | append_singleton events e ih =>
    obtain ⟨earlier, hearlier, hlast⟩ : ∃ earlier, openSessions events = some earlier ∧
        EngineEvent.follow earlier e = some live := exists_of_foldlM_concat h
    obtain ⟨hnodup, hcount⟩ := ih hearlier
    refine ⟨EngineEvent.nodup_follow hlast hnodup, fun n => ?_⟩
    have hopened : [e].filterMap EngineEvent.opened? = e.opened?.toList := by
      cases ho : e.opened? <;> simp [ho]
    have hclosed : [e].filterMap EngineEvent.closed? = e.closed?.toList := by
      cases hc : e.closed? <;> simp [hc]
    have hstep := EngineEvent.count_follow hlast n
    simp only [List.filterMap_append, List.count_append, hopened, hclosed, hcount n]
    omega

/-- A log that is in order, numbers its sessions one after the other and leaves given sessions
open. -/
structure IsLog (opened : Nat) (events : List (EngineEvent P)) (live : List SessionId) : Prop where
  opened_eq : events.filterMap EngineEvent.opened? = List.range' 1 opened
  open_perm : ∃ sessions, openSessions events = some sessions ∧ sessions.Perm live

namespace IsLog

variable {opened : Nat} {events : List (EngineEvent P)} {live live' : List SessionId}

/-- A library nothing was asked of has opened nothing. -/
theorem nil : IsLog 0 ([] : List (EngineEvent P)) [] := ⟨rfl, [], rfl, .rfl⟩

/-- The order of the open sessions does not matter. -/
theorem perm (h : IsLog opened events live) (hperm : live.Perm live') :
    IsLog opened events live' := by
  obtain ⟨hopened, sessions, hsessions, hlive⟩ := h
  exact ⟨hopened, sessions, hsessions, hlive.trans hperm⟩

/-- The open sessions are different from each other. -/
theorem nodup (h : IsLog opened events live) : live.Nodup := by
  obtain ⟨-, sessions, hsessions, hlive⟩ := h
  exact hlive.nodup_iff.mp (count_openSessions hsessions).1

/-- An open session has been opened. -/
theorem le_opened (h : IsLog opened events live) {n : SessionId} (hn : n ∈ live) :
    n ≤ opened := by
  obtain ⟨hopened, sessions, hsessions, hlive⟩ := h
  have hcount := (count_openSessions hsessions).2 n
  have hpos : 0 < sessions.count n := List.count_pos_iff.mpr (hlive.mem_iff.mpr hn)
  have hmem : n ∈ events.filterMap EngineEvent.opened? := List.count_pos_iff.mp (by omega)
  rw [hopened, List.mem_range'_1] at hmem
  exact Nat.lt_one_add_iff.mp hmem.2

/-- Once no session is open, every session that was opened has been closed once, and no other. -/
theorem count_closed (h : IsLog opened events []) (n : SessionId) :
    (events.filterMap EngineEvent.closed?).count n =
      (events.filterMap EngineEvent.opened?).count n := by
  obtain ⟨-, sessions, hsessions, hlive⟩ := h
  obtain rfl := hlive.eq_nil
  rw [(count_openSessions hsessions).2 n, List.count_nil, Nat.add_zero]

/-- A log in order after one more event. -/
theorem concat (h : IsLog opened events live) {e : EngineEvent P} {opened' : Nat}
    (hopened : List.range' 1 opened ++ e.opened?.toList = List.range' 1 opened')
    (hfollow : ∀ sessions : List SessionId, sessions.Perm live →
      ∃ after, EngineEvent.follow sessions e = some after ∧ after.Perm live') :
    IsLog opened' (events ++ [e]) live' := by
  obtain ⟨hbefore, sessions, hsessions, hlive⟩ := h
  obtain ⟨after, hafter, hperm⟩ := hfollow sessions hlive
  refine ⟨?_, after, ?_, hperm⟩
  · rw [List.filterMap_append, hbefore, ← hopened]
    cases ho : e.opened? <;> simp [ho]
  · rw [openSessions_append hsessions, List.foldlM_cons, hafter]
    rfl

/-- A session that cannot be opened leaves the log as it was. -/
theorem refuse (h : IsLog opened events live) (width height : Nat) (params : P) :
    IsLog opened (events ++ [.opened none width height params]) live :=
  h.concat (List.append_nil _) fun sessions hlive => ⟨sessions, rfl, hlive⟩

/-- The next session that is opened is open. -/
theorem open_next (h : IsLog opened events live) (width height : Nat) (params : P) :
    IsLog (opened + 1) (events ++ [.opened (some (opened + 1)) width height params])
      ((opened + 1) :: live) := by
  refine h.concat ?_ fun sessions hlive => ⟨(opened + 1) :: sessions, if_neg ?_, hlive.cons _⟩
  · rw [List.range'_1_concat, Nat.add_comm 1 opened]
    rfl
  · exact fun hmem => Nat.not_succ_le_self opened (h.le_opened (hlive.mem_iff.mp hmem))

/-- An open session can be used. -/
theorem use (h : IsLog opened events live) {session : SessionId} (hmem : session ∈ live)
    (width height : Nat) (layout : PlaneLayout) (length : Nat) :
    IsLog opened (events ++ [.encoded session width height layout length]) live :=
  h.concat (List.append_nil _) fun sessions hlive =>
    ⟨sessions, if_pos (hlive.mem_iff.mpr hmem), hlive⟩

/-- An open session can be closed. -/
theorem close {session : SessionId} (h : IsLog opened events (session :: live)) :
    IsLog opened (events ++ [.closed session]) live := by
  refine h.concat (List.append_nil _) fun sessions hlive => ⟨sessions.erase session, if_pos ?_, ?_⟩
  · exact hlive.mem_iff.mpr List.mem_cons_self
  · have herased := hlive.erase session
    rwa [List.erase_cons_head] at herased

end IsLog

namespace Pool

variable {params : P}

/-- Closing a session that may be there leaves the others open. -/
theorem isLog_closing {opened : Nat} {events : List (EngineEvent P)} {old : Option SessionId}
    {rest : List SessionId} (h : IsLog opened events (old.toList ++ rest)) :
    IsLog opened (events ++ closing old) rest := by
  cases old with
  | none =>
    rw [show closing (P := P) none = [] from rfl, List.append_nil]
    exact h
  | some session => exact h.close

/-- Making a slot ready keeps the log in order, with the slot's session afterwards in place of the
one before. -/
theorem Asks.isLog {opened opened' : Nat} {old now : Option SessionId}
    {result : Except BackendError ContextFlags} {events asked : List (EngineEvent P)}
    {rest : List SessionId} (ha : Asks params opened old result opened' now asked)
    (h : IsLog opened events (old.toList ++ rest)) :
    IsLog opened' (events ++ asked) (now.toList ++ rest) := by
  cases ha with
  | kept =>
    rw [List.append_nil]
    exact h
  | emptied => exact isLog_closing h
  | refused =>
    rw [← List.append_assoc]
    exact (isLog_closing h).refuse ..
  | @withdrawn _ width height =>
    have hopen := (isLog_closing h).open_next width height params
    have hclosed := hopen.close
    simpa only [List.append_assoc, List.singleton_append, Option.toList_none, List.nil_append]
      using hclosed
  | replaced =>
    rw [← List.append_assoc]
    exact (isLog_closing h).open_next ..

/-- The sessions of the slots. -/
def sessions (p : Pool) : List SessionId := p.slots.toList.filterMap Slot.session

/-- There are as many sessions as live slots, so at most one for each slot. -/
theorem length_sessions (p : Pool) : p.sessions.length = p.liveCount ∧ p.liveCount ≤ poolCapacity := by
  constructor
  · exact List.length_filterMap_eq_countP ..
  · exact Nat.le_trans List.countP_le_length (Nat.le_of_eq p.slots.length_toList)

/-- Pools with the same slots are equal. -/
theorem ext_get {p q : Pool} (h : ∀ i, p.get i = q.get i) : p = q := by
  cases p
  cases q
  exact congrArg Pool.mk (Vector.ext fun i hi => h ⟨i, hi⟩)

/-- A pool that differs from another in one slot at most is that pool with the slot replaced. -/
theorem eq_setSlot {p q : Pool} {channel : UInt32}
    (h : ∀ i, slotIndex channel ≠ i → q.get i = p.get i) :
    q = p.setSlot channel (q.slot channel) := by
  refine ext_get fun i => ?_
  by_cases hi : slotIndex channel = i
  · subst hi
    exact (slot_setSlot p channel (q.slot channel)).symm
  · rw [get_setSlot_of_ne hi]
    exact h i hi

/-- Replacing a slot replaces its session and leaves the others. -/
theorem exists_sessions_setSlot (p : Pool) (channel : UInt32) :
    ∃ rest, ∀ s, (p.setSlot channel s).sessions.Perm (s.session.toList ++ rest) := by
  refine ⟨(p.slots.toList.take (slotIndex channel)).filterMap Slot.session ++
    (p.slots.toList.drop (slotIndex channel + 1)).filterMap Slot.session, fun s => ?_⟩
  have hin : (slotIndex channel).val < p.slots.toList.length :=
    p.slots.length_toList.symm ▸ (slotIndex channel).isLt
  have hcons : ∀ l : List Slot, (s :: l).filterMap Slot.session =
      s.session.toList ++ l.filterMap Slot.session := fun l => by
    cases hs : s.session <;> simp [hs]
  rw [sessions, setSlot, Vector.toList_set, List.set_eq_take_append_cons_drop, if_pos hin,
    List.filterMap_append, hcons]
  exact List.perm_append_comm_assoc ..

/-- Emptying slots one after the other closes their sessions and opens none. -/
theorem log_destroyAll (slots : List Slot) (h : Host P σ) :
    let host := slots.foldl (fun h s => (destroy h s).1) h
    host.opened = h.opened ∧
      host.events = h.events ++ slots.flatMap fun s => closing s.session := by
  induction slots generalizing h with
  | nil => exact ⟨rfl, (List.append_nil _).symm⟩
  | cons s slots ih =>
    obtain ⟨hopened, hevents⟩ := ih (destroy h s).1
    rw [opened_destroy] at hopened
    rw [events_destroy, List.append_assoc] at hevents
    exact ⟨hopened, hevents⟩

/-- Closing the sessions of slots leaves the others open. -/
theorem isLog_closings {opened : Nat} {slots : List Slot} {events : List (EngineEvent P)}
    {rest : List SessionId} (h : IsLog opened events (slots.filterMap Slot.session ++ rest)) :
    IsLog opened (events ++ slots.flatMap fun s => closing s.session) rest := by
  induction slots generalizing events with
  | nil =>
    rw [List.flatMap_nil, List.append_nil]
    exact h
  | cons s slots ih =>
    rw [List.flatMap_cons, ← List.append_assoc]
    refine ih (isLog_closing (h.perm (List.Perm.of_eq ?_)))
    cases hs : s.session <;> simp [hs]

/-- A cleared pool has no sessions. -/
theorem sessions_clear (h : Host P σ) (p : Pool) : (clear h p).2.sessions = [] := by
  refine List.filterMap_eq_nil_iff.mpr fun s hs => ?_
  obtain ⟨i, hi, rfl⟩ := List.getElem_of_mem hs
  exact session_clear h p ⟨i, (clear h p).2.slots.length_toList ▸ hi⟩

/-- Clearing a pool closes the sessions of its slots. -/
theorem isLog_clear {h : Host P σ} {p : Pool} (hlog : IsLog h.opened h.events p.sessions) :
    IsLog (clear h p).1.opened (clear h p).1.events [] := by
  obtain ⟨hopened, hevents⟩ := log_destroyAll p.slots.toList h
  rw [show (clear h p).1.opened = _ from hopened, show (clear h p).1.events = _ from hevents]
  exact isLog_closings (hlog.perm (List.Perm.of_eq (List.append_nil _).symm))

/-- If the sessions of a pool are different from each other, no two slots share one. -/
theorem eq_of_session {p : Pool} (hnodup : p.sessions.Nodup) {i j : Fin poolCapacity}
    {session : SessionId} (hi : (p.get i).session = some session)
    (hj : (p.get j).session = some session) : i = j := by
  have hpairs := List.pairwise_filterMap.mp hnodup
  have hin : ∀ k : Fin poolCapacity, k.val < p.slots.toList.length := fun k =>
    p.slots.length_toList.symm ▸ k.isLt
  rw [List.pairwise_iff_getElem] at hpairs
  by_contra hne
  rcases Nat.lt_or_gt_of_ne (fun hv => hne (Fin.ext hv)) with hlt | hlt
  · exact hpairs i j (hin i) (hin j) hlt session hi session hj rfl
  · exact hpairs j i (hin j) (hin i) hlt session hj session hi rfl

/-- The sessions of a pool are those of its slots. -/
theorem mem_sessions_iff {p : Pool} {session : SessionId} :
    session ∈ p.sessions ↔ ∃ i, (p.get i).session = some session := by
  have hlength := p.slots.length_toList
  rw [sessions, List.mem_filterMap]
  constructor
  · rintro ⟨s, hs, hsession⟩
    obtain ⟨i, hi, rfl⟩ := List.getElem_of_mem hs
    exact ⟨⟨i, hlength ▸ hi⟩, hsession⟩
  · rintro ⟨i, hi⟩
    exact ⟨p.get i, List.getElem_mem (hlength.symm ▸ i.isLt), hi⟩

end Pool

end FrameEncoder
