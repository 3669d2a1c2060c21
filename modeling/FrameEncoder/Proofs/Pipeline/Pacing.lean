import FrameEncoder.Proofs.Pipeline.FlowUses
import FrameEncoder.Proofs.Pipeline.FrameCounters

/-!
# Pacing by the frames in flight

A session that asks the frame counters before every frame sees the frames that were sent and not
acknowledged. Frames that still wait in the queue are not among them, and the encode thread sends
those without asking anyone. So the frames in flight can pass their ceiling, but only by as many
frames as were waiting when the session was last allowed to go on.
-/

namespace FrameEncoder

/-- The newest of frames up to a number is up to that number. -/
theorem toNat_newest_le {ids : List UInt32} {n : Nat} (h : ∀ id ∈ ids, id.toNat ≤ n) :
    (newest ids).toNat ≤ n := by
  induction ids using List.reverseRecOn with
  | nil => exact Nat.zero_le n
  | append_singleton ids id ih =>
    rw [newest_concat, max_eq_ite]
    split
    · exact h id (List.mem_append_right _ (List.mem_singleton_self id))
    · exact ih fun id' hid' => h id' (List.mem_append_left _ hid')

variable {β : Type} {B : Backend β} {s t : System β}

/-- Every move leaves the frame counters alone or is a use of them. -/
theorem flow_move {m : Mover} (hmove : System.Moves B s m t) :
    t.flow = s.flow ∨ ∃ u, t.flow = s.flow.use u := by
  cases hmove with
  | @mark seq c ho =>
    cases hc : c.frameId with
    | none => exact .inl rfl
    | some id => exact .inr ⟨.generated id, rfl⟩
  | @effect e effects hw =>
    cases e with
    | markSent id => exact .inr ⟨.sent id, rfl⟩
    | _ => exact .inl rfl
  | flow u => exact .inr ⟨u, rfl⟩
  | release ho ht => exact .inl (System.flow_dropHeld s)
  | releaseIdle ho ht => exact .inl (System.flow_dropHeld s)
  | _ => exact .inl rfl

/-- A move keeps consistent counters so, takes no acknowledged frame back and leaves the ceiling
as it is. -/
theorem isConsistent_move {m : Mover} (hmove : System.Moves B s m t) (hs : s.flow.IsConsistent) :
    t.flow.IsConsistent ∧ s.flow.acknowledged ≤ t.flow.acknowledged ∧
      t.flow.maxInFlight = s.flow.maxInFlight := by
  rcases flow_move hmove with hflow | ⟨u, hflow⟩
  · rw [hflow]
    exact ⟨hs, UInt32.le_refl _, rfl⟩
  · rw [hflow]
    obtain ⟨hconsistent, hprecedes⟩ := hs.use u
    exact ⟨hconsistent, hprecedes.acknowledged_le, hprecedes.maxInFlight_eq⟩

/-- Counters that were in order before a move are so afterwards, and none has gone back. -/
theorem isOrdered_move {m : Mover} (hmove : System.Moves B s m t) (hs : s.flow.IsOrdered) :
    t.flow.IsOrdered ∧ s.flow.Precedes t.flow := by
  rcases flow_move hmove with hflow | ⟨u, hflow⟩
  · rw [hflow]
    exact ⟨hs, UInt32.le_refl _, UInt32.le_refl _, UInt32.le_refl _, rfl⟩
  · rw [hflow]
    exact ⟨hs.use u, (hs.toIsConsistent.use u).2⟩

/-- The counters of a pipeline are in order along every schedule, with the ceiling it was made
with. -/
theorem isOrdered_run (B : Backend β) (config : PipelineConfig) (backend : β)
    (schedule : List Mover) :
    let s := (System.new config backend).run B schedule
    s.flow.IsOrdered ∧ s.flow.maxInFlight = config.maxFramesInFlight := by
  refine System.run_induction
    (P := fun _ s => s.flow.IsOrdered ∧ s.flow.maxInFlight = config.maxFramesInFlight)
    ⟨Flow.isOrdered_new _, rfl⟩ ?_ schedule
  rintro _ s m t ⟨hs, hmax⟩ hnext
  obtain ⟨ht, hprecedes⟩ := isOrdered_move (System.moves_of_next hnext) hs
  exact ⟨ht, hprecedes.maxInFlight_eq.trans hmax⟩

/-- The counters of a pipeline are consistent along every schedule, with the ceiling it was made
with. -/
theorem isConsistent_run (B : Backend β) (config : PipelineConfig) (backend : β)
    (schedule : List Mover) :
    let s := (System.new config backend).run B schedule
    s.flow.IsConsistent ∧ s.flow.maxInFlight = config.maxFramesInFlight := by
  obtain ⟨hordered, hmax⟩ := isOrdered_run B config backend schedule
  exact ⟨hordered.toIsConsistent, hmax⟩

/-- The command a submission has taken and not yet marked. -/
def Owner.untold : Owner → List Command
  | .numbering c | .marking _ c => [c]
  | _ => []

namespace Move

/-- The command the session dispatches by a move. -/
def dispatched (x : Move β) : List Command :=
  match x.mover with
  | .call (.submit c) => [c]
  | _ => []

end Move

/-- A move takes on only what it dispatches, and marks only what was taken on. -/
theorem untold_move {m : Mover} (hmove : System.Moves B s m t) :
    t.owner.untold ⊆ s.owner.untold ++ Move.dispatched ⟨s, m, t⟩ ∧
      (Move.entered ⟨s, m, t⟩).map Prod.snd ⊆ s.owner.untold := by
  by_cases hm : m = .worker
  · subst hm
    rw [System.owner_eq_of_worker hmove]
    exact ⟨List.subset_append_left _ _, List.nil_subset _⟩
  · cases hmove <;> first
      | exact absurd rfl hm
      | simp_all [Move.entered, Move.dispatched, Owner.untold, System.answer, System.dropReceiver,
          System.useFlow]

/-- Every command whose frame was marked as generated was dispatched. -/
theorem entered_subset_dispatched (B : Backend β) (config : PipelineConfig) (backend : β)
    (schedule : List Mover) :
    let history := (System.new config backend).moves B schedule
    (history.flatMap Move.entered).map Prod.snd ⊆ history.flatMap Move.dispatched := by
  refine (System.run_induction (P := fun history s =>
    (history.flatMap Move.entered).map Prod.snd ⊆ history.flatMap Move.dispatched ∧
      s.owner.untold ⊆ history.flatMap Move.dispatched)
    ⟨List.nil_subset _, List.nil_subset _⟩ ?_ schedule).1
  rintro history s m t ⟨hentered, huntold⟩ hnext
  obtain ⟨htaken, hmarked⟩ := untold_move (System.moves_of_next hnext)
  simp only [List.flatMap_append, List.flatMap_singleton, List.map_append]
  refine ⟨List.append_subset.mpr ⟨fun c hc => List.mem_append_left _ (hentered hc),
    fun c hc => List.mem_append_left _ (huntold (hmarked hc))⟩, fun c hc => ?_⟩
  rcases List.mem_append.mp (htaken hc) with hc | hc
  · exact List.mem_append_left _ (huntold hc)
  · exact List.mem_append_right _ hc

/-- How far a session has come with its frames. -/
structure Pace where
  /-- The frames dispatched so far. -/
  frames : Nat
  /-- The frames dispatched before the last one that were not sent when it was last allowed. -/
  unsent : Nat
  /-- The frames sent when a further one was last allowed, if it was since the last one. -/
  allowed : Option Nat
deriving DecidableEq

/-- How far a session has come after a move, if it dispatches frames one, two, three and so on,
each of them after the frame counters have allowed it since the one before. -/
def Move.pace (x : Move β) (p : Pace) : Option Pace :=
  let allowed := if x.before.flow.mayDispatch then some x.before.flow.sent.toNat else p.allowed
  match x.dispatched, allowed with
  | [], allowed => some { p with allowed }
  | c :: _, some sent =>
    if c.frameId.map UInt32.toNat = some (p.frames + 1) then
      some ⟨p.frames + 1, p.frames - sent, none⟩
    else none
  | _ :: _, none => none

/-- How far a session has come after a history, if it kept pace. -/
def paced (history : List (Move β)) : Option Pace :=
  history.foldlM (fun p x => x.pace p) ⟨0, 0, none⟩

/-- What a session that keeps pace can rely on: no frame beyond those it dispatched, and a bound on
how far it is ahead of the acknowledgements. -/
structure KeepsPace (history : List (Move β)) (f : Flow) (p : Pace) : Prop where
  dispatched_le : ∀ c ∈ history.flatMap Move.dispatched, ∀ id, c.frameId = some id →
    id.toNat ≤ p.frames
  frames_le : p.frames ≤ f.acknowledged.toNat + f.maxInFlight.toNat + p.unsent
  allowed_lt : ∀ sent, p.allowed = some sent → sent < f.acknowledged.toNat + f.maxInFlight.toNat

/-- Where another frame is allowed, those sent are ahead of those acknowledged by less than the
ceiling. -/
theorem Flow.IsConsistent.sent_lt {f : Flow} (hf : f.IsConsistent) (hs : f.suppressed = false)
    (h : f.mayDispatch = true) : f.sent.toNat < f.acknowledged.toNat + f.maxInFlight.toNat := by
  have hsum := hf.inFlight_add hs
  rw [mayDispatch, hs, Bool.false_or, decide_eq_true_iff] at h
  have hlt := UInt32.lt_iff_toNat_lt.mp h
  omega

/-- A session that kept pace did so before its last move too. -/
theorem paced_concat {history : List (Move β)} {x : Move β} {p : Pace}
    (h : paced (history ++ [x]) = some p) :
    ∃ earlier, paced history = some earlier ∧ x.pace earlier = some p :=
  exists_of_foldlM_concat h

/-- A move of a session that keeps pace lets it rely on as much. -/
theorem KeepsPace.concat {history : List (Move β)} {earlier p : Pace}
    (h : KeepsPace history s.flow earlier) {m : Mover} (hmove : System.Moves B s m t)
    (hs : s.flow.IsConsistent) (hsuppressed : s.flow.suppressed = false)
    (hpace : Move.pace ⟨s, m, t⟩ earlier = some p) :
    KeepsPace (history ++ [⟨s, m, t⟩]) t.flow p := by
  obtain ⟨-, hacknowledged, hmax⟩ := isConsistent_move hmove hs
  have hle := UInt32.le_iff_toNat_le.mp hacknowledged
  obtain ⟨hdispatched, hframes, hallowed⟩ := h
  have hnow : ∀ sent, (if s.flow.mayDispatch then some s.flow.sent.toNat else earlier.allowed) =
      some sent → sent < t.flow.acknowledged.toNat + t.flow.maxInFlight.toNat := by
    intro sent hsent
    rw [hmax]
    split at hsent
    · next hmay =>
      obtain rfl := Option.some.inj hsent
      have hlt := hs.sent_lt hsuppressed hmay
      omega
    · have hlt := hallowed sent hsent
      omega
  unfold Move.pace at hpace
  simp only at hpace
  split at hpace
  · next hnone =>
    cases hpace
    refine ⟨?_, by simp only [hmax]; omega, hnow⟩
    rw [List.flatMap_append, List.flatMap_singleton, hnone, List.append_nil]
    exact hdispatched
  · next c rest sent hsome hallowed' =>
    split at hpace
    · next hid =>
      cases hpace
      have hrest : rest = [] := by
        unfold Move.dispatched at hsome
        split at hsome
        · exact (List.cons.inj hsome).2.symm
        · cases hsome
      refine ⟨?_, ?_, nofun⟩
      · rw [List.flatMap_append, List.flatMap_singleton, hsome, hrest]
        intro c' hc' id hid'
        rcases List.mem_append.mp hc' with hc' | hc'
        · exact Nat.le_succ_of_le (hdispatched c' hc' id hid')
        · rw [List.mem_singleton.mp hc'] at hid'
          rw [hid', Option.map_some, Option.some.injEq] at hid
          exact Nat.le_of_eq hid
      · have hlt := hnow sent hallowed'
        simp only
        omega
    · cases hpace
  · cases hpace

/-- No frame is marked as sent that was not dispatched. -/
theorem exists_dispatched_of_marked (B : Backend β) (config : PipelineConfig) (backend : β)
    (schedule : List Mover) :
    let history := (System.new config backend).moves B schedule
    ∀ id ∈ history.flatMap Move.marked, ∃ c ∈ history.flatMap Move.dispatched,
      c.frameId = some id := by
  intro history id hid
  have hframes := framesInOrder_run B config backend schedule
  have hsubmitted : id ∈ framesOf (history.flatMap Move.submitted) :=
    hframes.marked_prefix.subset (List.mem_append_left _ hid)
  obtain ⟨e, he, hframe⟩ := List.mem_filterMap.mp
    (submitted_subset_entered B config backend schedule hsubmitted)
  exact ⟨e.2, entered_subset_dispatched B config backend schedule (List.mem_map_of_mem he), hframe⟩

/-- A session that keeps pace can rely on it along every schedule, as long as the consumer does
nothing with the frame counters but to acknowledge completed frames in order. -/
theorem keepsPace_run (B : Backend β) (config : PipelineConfig) (backend : β)
    (schedule : List Mover) :
    let start := System.new config backend
    ∀ p, (awaited (start.moves B schedule)).isSome → paced (start.moves B schedule) = some p →
      KeepsPace (start.moves B schedule) (start.run B schedule).flow p := by
  intro start
  refine System.run_induction_of
    (P := fun history s => ∀ p, (awaited history).isSome → paced history = some p →
      KeepsPace history s.flow p)
    (I := fun history s => s.flow.IsConsistent ∧
      ((awaited history).isSome → s.flow.suppressed = false))
    (fun schedule => ⟨(isConsistent_run B config backend schedule).1,
      fun h => (countsFrames_run B config backend schedule h).unsuppressed⟩) ?_ ?_ schedule
  · intro p _ hp
    cases hp
    exact ⟨nofun, Nat.zero_le _, nofun⟩
  · rintro history s m t ⟨hconsistent, hunsuppressed⟩ h hnext p hawaited hpaced
    obtain ⟨pending, hpending⟩ := Option.isSome_iff_exists.mp hawaited
    obtain ⟨awaiting, hearlier, -⟩ := awaited_concat hpending
    have hbefore : (awaited history).isSome := by
      rw [hearlier]
      rfl
    obtain ⟨earlier, hkept, hpace⟩ := paced_concat hpaced
    exact (h earlier hbefore hkept).concat (System.moves_of_next hnext) hconsistent
      (hunsuppressed hbefore) hpace

/-- A session that keeps pace has at most as many frames in flight as the ceiling and the frames
that it had dispatched and that were not sent when its last dispatch was allowed. -/
theorem inFlight_le_of_paced (B : Backend β) (config : PipelineConfig) (backend : β)
    (schedule : List Mover) {p : Pace}
    (hsession : paced ((System.new config backend).moves B schedule) = some p)
    (hconsumer : (awaited ((System.new config backend).moves B schedule)).isSome) :
    ((System.new config backend).run B schedule).flow.inFlight.toNat ≤
      config.maxFramesInFlight.toNat + p.unsent := by
  obtain ⟨hconsistent, hmax⟩ := isConsistent_run B config backend schedule
  have hcounts := countsFrames_run B config backend schedule hconsumer
  have hkeeps := keepsPace_run B config backend schedule p hconsumer hsession
  have hsent := toNat_newest_le fun id hid => by
    obtain ⟨c, hc, hframe⟩ := exists_dispatched_of_marked B config backend schedule id hid
    exact hkeeps.dispatched_le c hc id hframe
  have hframes := hkeeps.frames_le
  have hsum := hconsistent.inFlight_add hcounts.unsuppressed
  rw [← hcounts.sent_eq] at hsent
  rw [hmax] at hframes
  omega

/-- The settings of a pipeline that allows one frame in flight. -/
def oneInFlight : PipelineConfig := { (default : PipelineConfig) with maxFramesInFlight := 1 }

/-- A backend that skips every picture. -/
def skipping : ScriptedBackend := ⟨[], .fail .frameSkipped, []⟩

/-- The owner's moves that submit a frame without pixels. -/
def submission (id : UInt32) : List Mover :=
  [.call (.submit (blankFrame id)), .owner, .owner, .owner]

/-- Two frames, the second submitted once the first was received and acknowledged. -/
def acknowledgedFirst : List Mover :=
  [.call (.start none), .owner] ++ submission 1 ++ List.replicate 9 .worker ++
    [.receive, .flow (.acknowledged 1)] ++ submission 2 ++ List.replicate 9 .worker

/-- A frame that was sent before the next was allowed does not count against the ceiling. -/
theorem inFlight_le_acknowledgedFirst :
    (paced ((System.new oneInFlight skipping).moves ScriptedBackend.backend acknowledgedFirst) =
        some ⟨2, 0, some 1⟩ ∧
      (awaited ((System.new oneInFlight skipping).moves ScriptedBackend.backend
        acknowledgedFirst)).isSome) ∧
      ((System.new oneInFlight skipping).run ScriptedBackend.backend
        acknowledgedFirst).flow.inFlight.toNat ≤ oneInFlight.maxFramesInFlight.toNat + 0 :=
  have hsession : paced ((System.new oneInFlight skipping).moves ScriptedBackend.backend
      acknowledgedFirst) = some ⟨2, 0, some 1⟩ := by decide +kernel
  have hconsumer : (awaited ((System.new oneInFlight skipping).moves ScriptedBackend.backend
      acknowledgedFirst)).isSome := by decide +kernel
  ⟨⟨hsession, hconsumer⟩, inFlight_le_of_paced _ _ _ _ hsession hconsumer⟩

/-- Two frames that are both submitted before the encode thread starts. -/
def queuedTogether : List Mover :=
  submission 1 ++ submission 2 ++ [.call (.start none), .owner] ++ List.replicate 18 .worker

/-- A session that keeps pace, with a consumer that keeps to its task, can have more frames in
flight than the ceiling: both frames were allowed while none was sent. -/
theorem ceiling_lt_inFlight_queuedTogether :
    paced ((System.new oneInFlight skipping).moves ScriptedBackend.backend queuedTogether) =
        some ⟨2, 1, some 0⟩ ∧
      awaited ((System.new oneInFlight skipping).moves ScriptedBackend.backend queuedTogether) =
        some [] ∧
      oneInFlight.maxFramesInFlight = 1 ∧
      ((System.new oneInFlight skipping).run ScriptedBackend.backend
        queuedTogether).flow.inFlight = 2 := by
  decide +kernel

end FrameEncoder
