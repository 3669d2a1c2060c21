import FrameEncoder.Proofs.Pipeline.Schedules

/-!
# The lifecycle of a pipeline

Where the owner is in a call says what it may rely on: a submission goes on only while the stop
flag is not set, a shutdown only once it is, and once a shutdown has returned the encode thread is
gone for good. An owner that waits for the encode thread has left it a reason to wake up.
-/

namespace FrameEncoder

/-- A thread that has ended is not still to be started. -/
theorem Worker.ne_held_of_isGone {w : Worker} (h : w.isGone = true) : w ≠ .held := by
  rintro rfl
  cases h

namespace System

variable {β : Type} {B : Backend β} {s t : System β}

/-- A pipeline whose encode thread has ended and was joined, or never was. -/
structure IsOver (s : System β) : Prop where
  phase_eq : s.phase = .terminated
  isGone : s.worker.isGone = true
  thread_eq : s.thread = false

/-- What the owner may rely on where it is. -/
def Relies (s : System β) : Owner → Prop
  | .ready _ => s.stop = true → s.IsOver
  | .spawning _ => s.stop = false ∧ s.worker = .held
  | .numbering _ | .marking _ _ | .queueing _ _ => s.stop = false
  | .releasing => s.stop = true
  | .waking => s.stop = true ∧ s.thread = true
  | .joining => s.stop = true ∧ s.thread = true ∧ (s.worker = .receiving → s.inbound ≠ [])

/-- A pipeline that its callers can bring about. -/
structure IsLawful (s : System β) : Prop where
  relies : s.Relies s.owner
  inbound_eq : s.worker.isGone = true → s.inbound = []
  ne_held : s.thread = true → s.worker ≠ .held
  held_or_gone : s.thread = false → s.worker = .held ∨ s.worker.isGone = true

/-- Where the owner is, what it relies on holds. -/
theorem IsLawful.relies_of (h : s.IsLawful) {o : Owner} (ho : s.owner = o) : s.Relies o :=
  ho ▸ h.relies

/-- A pipeline that was just made is lawful. -/
theorem isLawful_new (config : PipelineConfig) (backend : β) :
    (System.new config backend).IsLawful where
  relies h := by cases h
  inbound_eq _ := rfl
  ne_held h := by cases h
  held_or_gone _ := .inl rfl

/-- Once the stop flag is set the owner is at rest or on its way through a shutdown. -/
theorem IsLawful.owner_of_stop (h : s.IsLawful) (hstop : s.stop = true) :
    (∃ a, s.owner = .ready a) ∨ s.owner = .releasing ∨ s.owner = .waking ∨ s.owner = .joining := by
  have hrelies := h.relies
  cases ho : s.owner <;> simp_all [Relies]

/-- A thread that is gone makes no move. -/
theorem not_gone_of_worker (hmove : Moves B s .worker t) : s.worker.isGone = false := by
  cases hmove <;> simp_all [Worker.isGone]

/-- The encode thread changes neither the stop flag nor the phase. -/
theorem stop_eq_of_worker (hmove : Moves B s .worker t) :
    t.stop = s.stop ∧ t.phase = s.phase ∧ t.thread = s.thread := by
  cases hmove with
  | @effect e effects hw => cases e <;> exact ⟨rfl, rfl, rfl⟩
  | _ => exact ⟨rfl, rfl, rfl⟩

/-- The encode thread waits for a message only while the stop flag is not set. -/
theorem ne_receiving_of_worker (hmove : Moves B s .worker t) (hstop : s.stop = true) :
    t.worker ≠ .receiving := by
  cases hmove <;> simp_all [endWorker]

/-- A thread that has ended has dropped its queue. -/
theorem inbound_of_worker (hmove : Moves B s .worker t) :
    t.worker ≠ .held ∧ (t.worker.isGone = true → t.inbound = []) := by
  cases hmove <;> simp [endWorker, Worker.isGone]

/-- A move of the encode thread keeps a pipeline lawful. -/
theorem isLawful_worker (h : s.IsLawful) (hmove : Moves B s .worker t) : t.IsLawful := by
  obtain ⟨hstop, hphase, hthread⟩ := stop_eq_of_worker hmove
  obtain ⟨hheld, hinbound⟩ := inbound_of_worker hmove
  have hgone := not_gone_of_worker hmove
  have hrunning : s.thread = true := by
    refine eq_true_of_ne_false fun hnot => ?_
    rcases h.held_or_gone hnot with hw | hw
    · exact worker_ne_held hmove hw
    · exact Bool.false_ne_true (hgone.symm.trans hw)
  refine ⟨?_, hinbound, fun _ => hheld, fun hnot => ?_⟩
  · have hrelies := h.relies
    rw [owner_eq_of_worker hmove]
    cases ho : s.owner with
    | ready a =>
      rw [ho] at hrelies
      intro hset
      have hover := hrelies (hstop ▸ hset)
      exact absurd (hover.thread_eq.symm.trans hrunning) Bool.false_ne_true
    | spawning refusal =>
      rw [ho] at hrelies
      exact absurd hrelies.2 (worker_ne_held hmove)
    | numbering c => rw [ho] at hrelies; exact hstop.trans hrelies
    | marking seq c => rw [ho] at hrelies; exact hstop.trans hrelies
    | queueing seq c => rw [ho] at hrelies; exact hstop.trans hrelies
    | releasing => rw [ho] at hrelies; exact hstop.trans hrelies
    | waking => rw [ho] at hrelies; exact ⟨hstop.trans hrelies.1, hthread.trans hrelies.2⟩
    | joining =>
      rw [ho] at hrelies
      exact ⟨hstop.trans hrelies.1, hthread.trans hrelies.2.1,
        fun hw => absurd hw (ne_receiving_of_worker hmove hrelies.1)⟩
  · exact absurd (hnot.symm.trans (hthread.trans hrunning)) Bool.false_ne_true

/-- A call that is refused at once keeps a pipeline lawful. -/
theorem IsLawful.answer (h : s.IsLawful) {a : Option Answer} (ho : s.owner = .ready a)
    (a' : Answer) : (s.answer a').IsLawful := by
  have hrelies := h.relies_of ho
  refine ⟨fun hset => ?_, h.inbound_eq, h.ne_held, h.held_or_gone⟩
  obtain ⟨hphase, hgone, hthread⟩ := hrelies hset
  exact ⟨hphase, hgone, hthread⟩

/-- The first move of a call keeps a pipeline lawful. -/
theorem isLawful_call (h : s.IsLawful) {c : Call} (hmove : Moves B s (.call c) t) :
    t.IsLawful := by
  cases hmove with
  | @start a refusal ho hw =>
    have hrelies := h.relies_of ho
    refine ⟨⟨eq_false_of_ne_true fun hset => ?_, hw⟩, h.inbound_eq, h.ne_held,
      h.held_or_gone⟩
    have hgone := (hrelies hset).isGone
    rw [hw] at hgone
    cases hgone
  | startTerminated ho hw hp => exact h.answer ho _
  | startAgain ho hw hp => exact h.answer ho _
  | submitStopped ho hs => exact h.answer ho _
  | submit ho hs => exact ⟨hs, h.inbound_eq, h.ne_held, h.held_or_gone⟩
  | shutdown ho => exact ⟨rfl, h.inbound_eq, h.ne_held, h.held_or_gone⟩

/-- Without a thread to wait for, letting go of a held one leaves none behind. -/
theorem IsLawful.dropHeld (h : s.IsLawful) (hthread : s.thread = false) :
    (s.dropHeld B).worker.isGone = true ∧ (s.dropHeld B).inbound = [] := by
  unfold System.dropHeld
  split
  · exact ⟨rfl, rfl⟩
  · next hw =>
    have hgone := (h.held_or_gone hthread).resolve_left hw
    exact ⟨hgone, h.inbound_eq hgone⟩

/-- A thread that was started is not let go of. -/
theorem dropHeld_eq_self (hw : s.worker ≠ .held) : s.dropHeld B = s := if_neg hw

/-- A further move of the owner's call keeps a pipeline lawful. -/
theorem isLawful_owner (h : s.IsLawful) (hmove : Moves B s .owner t) : t.IsLawful := by
  cases hmove with
  | spawn ho =>
    have hrelies := h.relies_of ho
    exact ⟨fun hset => absurd (hrelies.1.symm.trans hset) Bool.false_ne_true, nofun, fun _ => nofun,
      nofun⟩
  | spawnRefused ho =>
    have hrelies := h.relies_of ho
    exact ⟨fun hset => absurd (hrelies.1.symm.trans hset) Bool.false_ne_true, fun _ => rfl,
      fun hset => absurd hrelies.2 (h.ne_held hset), fun _ => .inr rfl⟩
  | number ho =>
    have hrelies := h.relies_of ho
    exact ⟨hrelies, h.inbound_eq, h.ne_held, h.held_or_gone⟩
  | mark ho =>
    have hrelies := h.relies_of ho
    exact ⟨hrelies, h.inbound_eq, h.ne_held, h.held_or_gone⟩
  | queueGone ho hw =>
    have hrelies := h.relies_of ho
    exact ⟨fun hset => absurd (hrelies.symm.trans hset) Bool.false_ne_true, h.inbound_eq, h.ne_held,
      h.held_or_gone⟩
  | queue ho hw =>
    have hrelies := h.relies_of ho
    exact ⟨fun hset => absurd (hrelies.symm.trans hset) Bool.false_ne_true,
      fun hgone => absurd (hw.symm.trans hgone) Bool.false_ne_true, h.ne_held, h.held_or_gone⟩
  | release ho ht =>
    have hrelies := h.relies_of ho
    rw [dropHeld_eq_self (h.ne_held ht)]
    exact ⟨⟨hrelies, ht⟩, h.inbound_eq, h.ne_held, h.held_or_gone⟩
  | releaseIdle ho ht =>
    obtain ⟨hgone, hinbound⟩ := h.dropHeld (B := B) ht
    have hthread := (thread_dropHeld (B := B) s).trans ht
    exact ⟨fun _ => ⟨rfl, hgone, hthread⟩, fun _ => hinbound,
      fun hset => absurd (hthread.symm.trans hset) Bool.false_ne_true, fun _ => .inr hgone⟩
  | wake ho =>
    have hrelies := h.relies_of ho
    refine ⟨⟨hrelies.1, hrelies.2, fun hw => ?_⟩, fun hgone => ?_, h.ne_held, h.held_or_gone⟩
    · have hnot : s.worker.isGone = false := by rw [show s.worker = .receiving from hw]; rfl
      simp [hnot]
    · rw [show s.worker.isGone = true from hgone]
      exact h.inbound_eq hgone
  | join ho hw =>
    have hgone : s.worker.isGone = true := by rw [hw]; rfl
    exact ⟨fun _ => ⟨rfl, hgone, rfl⟩, h.inbound_eq, nofun, fun _ => .inr hgone⟩

/-- Every move keeps a pipeline lawful. -/
theorem isLawful_move {m : Mover} (h : s.IsLawful) (hmove : Moves B s m t) : t.IsLawful := by
  have hsame : t.owner = s.owner → t.stop = s.stop → t.phase = s.phase → t.thread = s.thread →
      t.worker = s.worker → t.inbound = s.inbound → t.IsLawful := by
    intro ho hstop hphase hthread hw hi
    refine ⟨?_, by rw [hw, hi]; exact h.inbound_eq, by rw [hthread, hw]; exact h.ne_held,
      by rw [hthread, hw]; exact h.held_or_gone⟩
    have hrelies := h.relies
    rw [ho]
    cases hs : s.owner with
    | ready a =>
      rw [hs] at hrelies
      intro hset
      obtain ⟨hp, hg, ht⟩ := hrelies (hstop ▸ hset)
      exact ⟨hphase.trans hp, hw ▸ hg, hthread.trans ht⟩
    | _ =>
      rw [hs] at hrelies
      simpa only [Relies, hstop, hthread, hw, hi] using hrelies
  cases m with
  | worker => exact isLawful_worker h hmove
  | owner => exact isLawful_owner h hmove
  | call c => exact isLawful_call h hmove
  | receive => cases hmove; exact hsame rfl rfl rfl rfl rfl rfl
  | dropReceiver => cases hmove; exact hsame rfl rfl rfl rfl rfl rfl
  | flow u => cases hmove; exact hsame rfl rfl rfl rfl rfl rfl

/-- An encode thread that is gone stays as it is. -/
theorem IsLawful.worker_eq_of_gone {m : Mover} (h : s.IsLawful) (hgone : s.worker.isGone = true)
    (hmove : Moves B s m t) : t.worker = s.worker := by
  have hheld := Worker.ne_held_of_isGone hgone
  have hspawning : ∀ refusal, s.owner ≠ .spawning refusal := by
    intro refusal ho
    have hrelies := h.relies_of ho
    exact hheld hrelies.2
  by_cases hworker : m = .worker
  · subst hworker
    exact absurd ((not_gone_of_worker hmove).symm.trans hgone) Bool.false_ne_true
  · by_cases howner : m = .owner
    · subst howner
      cases hmove with
      | spawn ho => exact absurd ho (hspawning _)
      | spawnRefused ho => exact absurd ho (hspawning _)
      | release ho ht =>
        show (s.dropHeld B).worker = s.worker
        rw [dropHeld_eq_self hheld]
      | releaseIdle ho ht =>
        show (s.dropHeld B).worker = s.worker
        rw [dropHeld_eq_self hheld]
      | _ => rfl
    · exact (worker_eq_of_ne hmove hworker howner).1

/-- A thread is asked for only by a call to start. -/
theorem spawning_of_move {m : Mover} (hmove : Moves B s m t) {refusal : Option String}
    (ho : t.owner = .spawning refusal) :
    s.owner = .spawning refusal ∨ m = .call (.start refusal) := by
  cases m with
  | worker => exact .inl ((owner_eq_of_worker hmove).symm.trans ho)
  | owner => cases hmove <;> cases ho
  | call c =>
    cases hmove with
    | start ho' hw =>
      cases ho
      exact .inr rfl
    | _ => cases ho
  | receive =>
    cases hmove
    exact .inl ho
  | dropReceiver =>
    cases hmove
    exact .inl ho
  | flow u =>
    cases hmove
    exact .inl ho

/-- Nothing but a call sets the stop flag. -/
theorem stop_eq_of_ne_call {m : Mover} (hmove : Moves B s m t) (hcall : ∀ c, m ≠ .call c) :
    t.stop = s.stop := by
  cases m with
  | worker => exact (stop_eq_of_worker hmove).1
  | call c => exact absurd rfl (hcall c)
  | owner =>
    cases hmove with
    | release ho ht => exact stop_dropHeld s
    | releaseIdle ho ht => exact stop_dropHeld s
    | _ => rfl
  | _ =>
    cases hmove
    rfl

/-- The stop flag stays set. -/
theorem stop_of_move {m : Mover} (hmove : Moves B s m t) (hstop : s.stop = true) :
    t.stop = true := by
  cases hmove with
  | @effect e effects hw => cases e <;> exact hstop
  | release ho ht => exact (stop_dropHeld s).trans hstop
  | releaseIdle ho ht => exact (stop_dropHeld s).trans hstop
  | shutdown ho => rfl
  | _ => exact hstop

/-- An encode thread ends without a crash because of the stop flag, or because it is refused. -/
theorem IsLawful.stop_of_ends {m : Mover} (h : s.IsLawful) (hmove : Moves B s m t)
    (hgone : s.worker.isGone = false) (hends : t.worker = .gone false) :
    t.stop = true ∨ ∃ reason, s.owner = .spawning (some reason) := by
  have hnot : s.worker ≠ .gone false := by
    intro hw
    rw [hw] at hgone
    cases hgone
  cases hmove with
  | stopLooping hw hs => exact .inl hs
  | stopRechecking hw hs => exact .inl hs
  | spawnRefused ho => exact .inr ⟨_, ho⟩
  | release ho ht =>
    have hrelies := h.relies_of ho
    exact .inl (stop_of_move (.release ho ht) hrelies)
  | releaseIdle ho ht =>
    have hrelies := h.relies_of ho
    exact .inl (stop_of_move (B := B) (.releaseIdle ho ht) hrelies)
  | _ => first
    | exact absurd hends hnot
    | cases hends

/-- Every schedule keeps a pipeline lawful. -/
theorem isLawful_run (h : s.IsLawful) (schedule : List Mover) : (s.run B schedule).IsLawful :=
  run_induction (P := fun _ s => s.IsLawful) h
    (fun _ _ _ _ hs hnext => isLawful_move hs (moves_of_next hnext)) schedule

/-- An encode thread that is gone stays as it is along every schedule. -/
theorem IsLawful.worker_run_of_gone (h : s.IsLawful) (hgone : s.worker.isGone = true)
    (schedule : List Mover) : (s.run B schedule).worker = s.worker := by
  refine run_induction_of (P := fun _ t => t.worker = s.worker) (I := fun _ t => t.IsLawful)
    (isLawful_run h) rfl ?_ schedule
  intro _ t m u ht hw hnext
  exact (ht.worker_eq_of_gone (by rw [hw, hgone]) (moves_of_next hnext)).trans hw

end System

end FrameEncoder
