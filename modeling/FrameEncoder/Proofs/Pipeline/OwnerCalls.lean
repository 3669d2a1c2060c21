import FrameEncoder.Backend.Scripted
import FrameEncoder.Proofs.Pipeline.Shutdown

/-!
# The owner's calls and their answers

What a pipeline answers its owner depends on where the encode thread is, on whether there is a
thread to join, on the stop flag and on the phase, which three kinds of calls, a refused thread
and a crash change in different orders. All four follow from the calls that have returned and from
whether the encode thread has crashed, and so does every answer.
-/

namespace FrameEncoder

/-- The call the owner is in. -/
def Owner.call? : Owner → Option Call
  | .ready _ => none
  | .spawning refusal => some (.start refusal)
  | .numbering c | .marking _ c | .queueing _ c => some (.submit c)
  | .releasing | .waking | .joining => some .shutdown

/-- Whether a call submits a command. -/
def Call.isSubmit : Call → Bool
  | .submit _ => true
  | _ => false

/-- Calls that are all submissions. -/
def SubmitsOnly (calls : List (Call × Answer)) : Prop := ∀ c ∈ calls, c.1.isSubmit = true

/-- Calls of which one is a shutdown. -/
def HasShutDown (calls : List (Call × Answer)) : Prop := ∃ a, (Call.shutdown, a) ∈ calls

namespace Move

variable {β : Type}

/-- The owner's call that a move is part of. -/
def call? (x : Move β) : Option Call :=
  match x.mover with
  | .call c => some c
  | .owner => x.before.owner.call?
  | _ => none

/-- The call that returned by a move, with its answer. -/
def returned (x : Move β) : List (Call × Answer) :=
  match x.call?, x.after.owner with
  | some c, .ready (some a) => [(c, a)]
  | _, _ => []

/-- A move by which the encode thread crashes. -/
def Crashes (B : Backend β) (x : Move β) : Prop :=
  x.mover = .worker ∧ ∃ seq c, x.before.worker = .encoding seq c ∧
    (processCommand B x.before.config x.before.backend x.before.dest seq c).effects = none

end Move

variable {β : Type} {B : Backend β} {s t : System β}

/-- More calls are all submissions if those before and those after are. -/
theorem submitsOnly_append {calls later : List (Call × Answer)} :
    SubmitsOnly (calls ++ later) ↔ SubmitsOnly calls ∧ SubmitsOnly later :=
  List.forall_mem_append

/-- Among more calls there is a shutdown if there is one before or after. -/
theorem hasShutDown_append {calls later : List (Call × Answer)} :
    HasShutDown (calls ++ later) ↔ HasShutDown calls ∨ HasShutDown later := by
  simp only [HasShutDown, List.mem_append, exists_or]

/-- An encode thread is still to be started as long as only submissions return. -/
theorem held_move {m : Mover} (h : s.IsLawful) (hmove : System.Moves B s m t) :
    t.worker = .held ↔ s.worker = .held ∧ SubmitsOnly (Move.returned ⟨s, m, t⟩) := by
  cases m with
  | worker =>
    exact ⟨fun hw => absurd hw (System.inbound_of_worker hmove).1,
      fun hw => absurd hw.1 (System.worker_ne_held hmove)⟩
  | owner =>
    cases hmove with
    | release ho ht =>
      have hw := h.ne_held ht
      simp [System.dropHeld_eq_self hw, hw]
    | releaseIdle ho ht =>
      have hw := Worker.ne_held_of_isGone (h.dropHeld (B := B) ht).1
      simpa [System.answer, Move.returned, Move.call?, Owner.call?, SubmitsOnly, Call.isSubmit, ho]
        using hw
    | join ho hw => simp [System.answer, hw]
    | _ =>
      simp_all [System.answer, System.endWorker, Move.returned, Move.call?, Owner.call?,
        SubmitsOnly, Call.isSubmit]
  | call c =>
    cases hmove <;>
      simp_all [System.answer, Move.returned, Move.call?, SubmitsOnly, Call.isSubmit]
  | _ =>
    cases hmove
    simp [Move.returned, Move.call?, SubmitsOnly, System.dropReceiver, System.useFlow]

/-- The encode thread has crashed exactly after a move by which it crashes. -/
theorem crashed_move {m : Mover} (h : s.IsLawful) (hmove : System.Moves B s m t) :
    t.worker = .gone true ↔ s.worker = .gone true ∨ Move.Crashes B ⟨s, m, t⟩ := by
  constructor
  · intro hw
    cases hmove with
    | crash hencoding hp => exact .inr ⟨rfl, _, _, hencoding, hp⟩
    | release ho ht =>
      rw [System.dropHeld_eq_self (h.ne_held ht)] at hw
      exact .inl hw
    | releaseIdle ho ht =>
      refine .inl ?_
      by_cases hheld : s.worker = .held
      · simp [System.answer, System.dropHeld, hheld, System.endWorker] at hw
      · rwa [System.dropHeld_eq_self hheld] at hw
    | _ => first
      | exact .inl hw
      | cases hw
  · rintro (hw | ⟨hm, seq, c, hw, hp⟩)
    · exact (h.worker_eq_of_gone (by rw [hw]; rfl) hmove).trans hw
    · obtain rfl : m = .worker := hm
      cases hmove <;> simp_all [System.endWorker]

/-- A shutdown returns at once if there is no thread to join, and else with what the thread it
joined came to. -/
theorem shutdown_returned {m : Mover} {a : Answer} (hmove : System.Moves B s m t)
    (h : (.shutdown, a) ∈ Move.returned ⟨s, m, t⟩) :
    t.owner = .ready (some a) ∧ t.phase = .terminated ∧
      (s.owner = .releasing ∧ s.thread = false ∧ a = .stopped ∨
        s.owner = .joining ∧ ∃ crashed, s.worker = .gone crashed ∧
          a = if crashed then .refused .threadCrashed else .stopped) := by
  cases hmove with
  | releaseIdle ho ht =>
    obtain rfl : a = .stopped := by
      simpa [Move.returned, Move.call?, Owner.call?, System.answer, ho] using h
    exact ⟨rfl, rfl, .inl ⟨ho, ht, rfl⟩⟩
  | @join crashed ho hw =>
    obtain rfl : a = if crashed then .refused .threadCrashed else .stopped := by
      simpa [Move.returned, Move.call?, Owner.call?, System.answer, ho] using h
    exact ⟨rfl, rfl, .inr ⟨ho, crashed, hw, rfl⟩⟩
  | _ => simp_all [Move.returned, Move.call?, Owner.call?, System.answer]

/-- A shutdown that returns leaves a pipeline behind that is over. -/
theorem isOver_of_returned {m : Mover} (h : s.IsLawful) (hmove : System.Moves B s m t)
    (hreturned : HasShutDown (Move.returned ⟨s, m, t⟩)) : t.stop = true ∧ t.IsOver := by
  obtain ⟨a, ha⟩ := hreturned
  obtain ⟨hready, -, hcame⟩ := shutdown_returned hmove ha
  have hstop : s.stop = true := by
    rcases hcame with ⟨ho, -⟩ | ⟨ho, -⟩
    · exact h.relies_of ho
    · exact (h.relies_of ho).1
  have hkept := System.stop_of_move hmove hstop
  exact ⟨hkept, (System.isLawful_move h hmove).relies_of hready hkept⟩

/-- What a pipeline shows of the calls that have returned along a history. -/
structure Reflects (B : Backend β) (history : List (Move β)) (s : System β) : Prop where
  held_iff : s.worker = .held ↔ SubmitsOnly (history.flatMap Move.returned)
  crashed_iff : s.worker = .gone true ↔ ∃ x ∈ history, x.Crashes B
  isOver : HasShutDown (history.flatMap Move.returned) → s.stop = true ∧ s.IsOver
  /-- A thread that crashed is there to join until a shutdown has returned. -/
  thread_eq : s.worker = .gone true → ¬ HasShutDown (history.flatMap Move.returned) →
    s.thread = true
  /-- A thread ends without a crash only by a shutdown, or because it was refused. -/
  ends : s.worker = .gone false → s.stop = true ∨ ∃ reason,
    (.start (some reason), .refused (.spawn reason)) ∈ history.flatMap Move.returned
  phase_of_held : s.worker = .held → s.phase.rank ≤ 1
  phase_of_thread : s.thread = true → s.phase.rank ≤ 2
  rank_le : ∀ x ∈ history, x.before.phase.rank ≤ s.phase.rank

/-- No phase comes after the last. -/
theorem Phase.rank_le (p : Phase) : p.rank ≤ Phase.terminated.rank := by
  cases p <;> decide

/-- The phase moves forward, up to running while the encode thread is still to be started and up to
draining while there is one to join. -/
theorem phase_move {m : Mover} (h : s.IsLawful) (hheld : s.worker = .held → s.phase.rank ≤ 1)
    (hthread : s.thread = true → s.phase.rank ≤ 2) (hmove : System.Moves B s m t) :
    (t.worker = .held → t.phase.rank ≤ 1) ∧ (t.thread = true → t.phase.rank ≤ 2) ∧
      s.phase.rank ≤ t.phase.rank := by
  cases m with
  | worker =>
    obtain ⟨-, hphase, hsame⟩ := System.stop_eq_of_worker hmove
    rw [hphase, hsame]
    exact ⟨fun hw => absurd hw (System.inbound_of_worker hmove).1, hthread, Nat.le_refl _⟩
  | owner =>
    cases hmove with
    | spawn ho =>
      have hidle := hheld (h.relies_of ho).2
      exact ⟨nofun, fun _ => Nat.le_succ_of_le hidle, Nat.le_refl _⟩
    | spawnRefused ho =>
      exact ⟨nofun, fun ht => absurd (h.relies_of ho).2 (h.ne_held ht), s.phase.rank_le⟩
    | release ho ht =>
      rw [System.dropHeld_eq_self (h.ne_held ht)]
      exact ⟨fun hw => absurd hw (h.ne_held ht), fun _ => Nat.le_refl _, hthread ht⟩
    | releaseIdle ho ht =>
      refine ⟨fun hw => ?_, fun hset => ?_, s.phase.rank_le⟩
      · exact absurd hw (Worker.ne_held_of_isGone (h.dropHeld (B := B) ht).1)
      · exact absurd (((System.thread_dropHeld s).trans ht).symm.trans hset) Bool.false_ne_true
    | join ho hw => exact ⟨fun hheld => (by cases hw.symm.trans hheld), nofun, s.phase.rank_le⟩
    | _ => exact ⟨hheld, hthread, Nat.le_refl _⟩
  | call c =>
    cases hmove with
    | start ho hw => exact ⟨fun _ => Nat.le_refl _, fun _ => Nat.le_succ 1, hheld hw⟩
    | _ => exact ⟨hheld, hthread, Nat.le_refl _⟩
  | _ =>
    cases hmove
    exact ⟨hheld, hthread, Nat.le_refl _⟩

/-- A thread that is to be joined stays so until a shutdown returns. -/
theorem thread_move {m : Mover} (hmove : System.Moves B s m t) (hthread : s.thread = true)
    (hnot : ¬ HasShutDown (Move.returned ⟨s, m, t⟩)) : t.thread = true := by
  cases m with
  | worker => exact (System.stop_eq_of_worker hmove).2.2.trans hthread
  | owner =>
    cases hmove with
    | spawn ho => rfl
    | release ho ht => exact (System.thread_dropHeld s).trans hthread
    | releaseIdle ho ht => exact absurd (ht.symm.trans hthread) Bool.false_ne_true
    | join ho hw =>
      refine absurd ?_ hnot
      simp [HasShutDown, Move.returned, Move.call?, Owner.call?, System.answer, ho]
    | _ => exact hthread
  | _ => cases hmove <;> exact hthread

/-- A thread that is refused is so by the answer of its start. -/
theorem returned_of_refused {m : Mover} (h : s.IsLawful) (hmove : System.Moves B s m t)
    {reason : String} (ho : s.owner = .spawning (some reason)) (hends : t.worker = .gone false) :
    (.start (some reason), .refused (.spawn reason)) ∈ Move.returned ⟨s, m, t⟩ := by
  have hheld : s.worker = .held := (h.relies_of ho).2
  by_cases howner : m = .owner
  · subst howner
    cases hmove with
    | spawnRefused ho' =>
      cases ho.symm.trans ho'
      simp [Move.returned, Move.call?, Owner.call?, System.answer, ho]
    | _ => simp_all
  · have hworker : m ≠ .worker := by
      rintro rfl
      exact System.worker_ne_held hmove hheld
    have hsame := (System.worker_eq_of_ne hmove hworker howner).1
    rw [hsame, hheld] at hends
    cases hends

/-- Every move keeps what a pipeline shows of the calls that have returned. -/
theorem reflects_concat {history : List (Move β)} {m : Mover} (hlawful : s.IsLawful)
    (h : Reflects B history s) (hmove : System.Moves B s m t) :
    Reflects B (history ++ [Move.mk s m t]) t := by
  have hcalls : (history ++ [Move.mk s m t]).flatMap Move.returned =
      history.flatMap Move.returned ++ Move.returned ⟨s, m, t⟩ := by
    rw [List.flatMap_append, List.flatMap_singleton]
  obtain ⟨hheld, hthread, hforward⟩ :=
    phase_move hlawful h.phase_of_held h.phase_of_thread hmove
  constructor
  · rw [hcalls, submitsOnly_append, ← h.held_iff]
    exact held_move hlawful hmove
  · rw [crashed_move hlawful hmove, h.crashed_iff]
    simp only [List.mem_append, List.mem_singleton, or_and_right, exists_or, exists_eq_left]
  · rw [hcalls, hasShutDown_append]
    rintro (hshut | hshut)
    · obtain ⟨hstop, hover⟩ := h.isOver hshut
      exact ⟨System.stop_of_move hmove hstop, hover.move hlawful hmove⟩
    · exact isOver_of_returned hlawful hmove hshut
  · rw [hcalls, hasShutDown_append, not_or]
    rintro hgone ⟨hnot, hnot'⟩
    refine thread_move hmove ?_ hnot'
    rcases (crashed_move hlawful hmove).mp hgone with hw | ⟨-, seq, c, hw, -⟩
    · exact h.thread_eq hw hnot
    · by_contra hthread
      rcases hlawful.held_or_gone (eq_false_of_ne_true hthread) with hw' | hw' <;>
        simp [show s.worker = .encoding seq c from hw, Worker.isGone] at hw'
  · intro hends
    rw [hcalls]
    cases hgone : s.worker.isGone with
    | true =>
      rcases h.ends ((hlawful.worker_eq_of_gone hgone hmove).symm.trans hends) with
        hstop | ⟨reason, hreason⟩
      · exact .inl (System.stop_of_move hmove hstop)
      · exact .inr ⟨reason, List.mem_append_left _ hreason⟩
    | false =>
      rcases hlawful.stop_of_ends hmove hgone hends with hstop | ⟨reason, ho⟩
      · exact .inl hstop
      · exact .inr ⟨reason, List.mem_append_right _ (returned_of_refused hlawful hmove ho hends)⟩
  · exact hheld
  · exact hthread
  · rw [List.forall_mem_append, List.forall_mem_singleton]
    exact ⟨fun x hx => Nat.le_trans (h.rank_le x hx) hforward, hforward⟩

/-- A pipeline reflects its calls along every schedule. -/
theorem reflects_run (B : Backend β) (config : PipelineConfig) (backend : β)
    (schedule : List Mover) :
    let start := System.new config backend
    Reflects B (start.moves B schedule) (start.run B schedule) := by
  refine System.run_induction_of (P := Reflects B) (I := fun _ s => s.IsLawful)
    (System.isLawful_run (System.isLawful_new config backend)) ?_
    (fun _ _ _ _ hlawful h hnext => reflects_concat hlawful h (System.moves_of_next hnext))
    schedule
  constructor <;> simp [System.new, SubmitsOnly, HasShutDown, Phase.rank]

/-- A start gets its thread only while the encode thread is still to be started. -/
theorem held_of_started {m : Mover} {c : Call} (h : s.IsLawful) (hmove : System.Moves B s m t)
    (hreturned : (c, .started) ∈ Move.returned ⟨s, m, t⟩) : s.worker = .held := by
  cases hmove with
  | spawn ho => exact (h.relies_of ho).2
  | @join crashed ho hw =>
    cases crashed <;> simp [Move.returned, Move.call?, Owner.call?, System.answer, ho] at hreturned
  | _ => simp_all [Move.returned, Move.call?, Owner.call?, System.answer]

/-- A start gets its thread only if nothing but submissions has returned before. -/
theorem started_run (B : Backend β) (config : PipelineConfig) (backend : β)
    (schedule : List Mover) :
    (((System.new config backend).moves B schedule).flatMap Move.returned).Pairwise
      fun c d => d.2 = .started → c.1.isSubmit = true := by
  refine System.run_induction_of
    (P := fun history _ => (history.flatMap Move.returned).Pairwise
      fun c d => d.2 = .started → c.1.isSubmit = true)
    (I := fun history s => s.IsLawful ∧ Reflects B history s)
    (fun schedule => ⟨System.isLawful_run (System.isLawful_new config backend) schedule,
      reflects_run B config backend schedule⟩) .nil ?_ schedule
  rintro history s m t ⟨hlawful, hreflects⟩ h hnext
  rw [List.flatMap_append, List.flatMap_singleton, List.pairwise_append]
  refine ⟨h, ?_, ?_⟩
  · -- One move returns from one call at most.
    unfold Move.returned
    split
    · exact List.pairwise_singleton _ _
    · exact .nil
  · rintro c hc ⟨call, answer⟩ hd rfl
    exact hreflects.held_iff.mp (held_of_started hlawful (System.moves_of_next hnext) hd) c hc

/-- Once the stop flag is set, the encode thread and the owner can go on until the owner is in no
call. -/
theorem System.IsLawful.exists_ready (h : s.IsLawful) (hstop : s.stop = true) :
    ∃ schedule, (∀ m ∈ schedule, m.isBusy = true) ∧
      (s.run B schedule).owner.call? = none := by
  induction hn : s.workLeft B + s.callLeft using Nat.strongRecOn generalizing s with
  | _ n ih =>
    by_cases hcall : s.owner.call? = none
    · exact ⟨[], nofun, hcall⟩
    · have hready : ∀ a, s.owner ≠ .ready a := by
        rintro a ho
        exact hcall (by rw [ho]; rfl)
      have hnext : ∃ m t, s.next B m = some t ∧ m.isBusy = true ∧
          t.workLeft B + t.callLeft < s.workLeft B + s.callLeft := by
        rcases h.can_move (B := B) hstop hready with hm | hm
        · obtain ⟨t, ht⟩ := Option.isSome_iff_exists.mp hm
          obtain ⟨hless, hsame⟩ := callLeft_owner h (moves_of_next ht) hstop
          exact ⟨.owner, t, ht, rfl, by omega⟩
        · obtain ⟨t, ht⟩ := Option.isSome_iff_exists.mp hm
          have hless := workLeft_worker (moves_of_next ht) hstop
          have hsame := callLeft_worker (moves_of_next ht)
          exact ⟨.worker, t, ht, rfl, by omega⟩
      obtain ⟨m, t, ht, hbusy, hless⟩ := hnext
      obtain ⟨schedule, hschedule, hdone⟩ := ih _ (hn ▸ hless)
        (isLawful_move h (moves_of_next ht)) (stop_of_move (moves_of_next ht) hstop) rfl
      refine ⟨m :: schedule, List.forall_mem_cons.mpr ⟨hbusy, hschedule⟩, ?_⟩
      rw [run, ht]
      exact hdone

/-- How a pipeline answers its owner after a history. -/
structure FollowsLifecycle (B : Backend β) (history : List (Move β)) (s : System β) : Prop where
  /-- The phase has only moved forward. -/
  rank_le : ∀ x ∈ history, x.before.phase.rank ≤ s.phase.rank
  /-- A start gets its thread only if nothing but submissions has returned before: no other start,
  whatever became of it, and no shutdown. -/
  started : (history.flatMap Move.returned).Pairwise
    fun c d => d.2 = .started → c.1.isSubmit = true
  /-- As long as that is so, the encode thread is still to be started. -/
  held_iff : s.worker = .held ↔ SubmitsOnly (history.flatMap Move.returned)
  /-- A start that finds it taken is refused at once and changes nothing. -/
  start_eq : s.owner.call? = none → s.worker ≠ .held → ∀ refusal,
    s.next B (.call (.start refusal)) =
      some (s.answer (.refused (if s.phase = .terminated then .shutDown else .alreadyStarted)))
  /-- Once a shutdown has returned, a submission is refused at once and changes nothing. -/
  submit_eq : HasShutDown (history.flatMap Move.returned) → s.owner.call? = none → ∀ c,
    s.next B (.call (.submit c)) = some (s.answer (.refused .shutDown))
  /-- Another shutdown returns by its second move and changes nothing. -/
  shutdown_eq : HasShutDown (history.flatMap Move.returned) →
    (s.owner.call? = none →
      s.next B (.call .shutdown) = some { s with owner := .releasing }) ∧
    (s.owner.call? = some .shutdown → s.next B .owner = some (s.answer .stopped))
  /-- Every shutdown that was called can return, and needs nobody but the encode thread for it. -/
  exists_ready : s.owner.call? = some .shutdown → ∃ schedule,
    (∀ m ∈ schedule, m.isBusy = true) ∧ (s.run B schedule).owner.call? = none
  /-- By then the pipeline is terminated. The shutdown reports a crash exactly if there has been one
  and no shutdown has returned before. -/
  returned : ∀ m t, s.next B m = some t → ∀ a, (.shutdown, a) ∈ Move.returned ⟨s, m, t⟩ →
    t.phase = .terminated ∧
      (a = .refused .threadCrashed ∧ ¬ HasShutDown (history.flatMap Move.returned) ∧
          (∃ x ∈ history, x.Crashes B) ∨
        a = .stopped ∧ ¬ (¬ HasShutDown (history.flatMap Move.returned) ∧
          ∃ x ∈ history, x.Crashes B))

/-- An owner in no call is ready for one. -/
theorem Owner.call?_eq_none {o : Owner} : o.call? = none ↔ ∃ a, o = .ready a := by
  cases o <;> simp [call?]

/-- An owner that shuts down a pipeline that is over has no thread to join. -/
theorem releasing_of_isOver (h : s.IsLawful) (hover : s.IsOver)
    (hcall : s.owner.call? = some .shutdown) : s.owner = .releasing := by
  cases ho : s.owner with
  | releasing => rfl
  | waking => exact absurd (hover.thread_eq.symm.trans (h.relies_of ho).2) Bool.false_ne_true
  | joining => exact absurd (hover.thread_eq.symm.trans (h.relies_of ho).2.1) Bool.false_ne_true
  | _ =>
    rw [ho] at hcall
    cases hcall

/-- Shutting down a pipeline that is over changes nothing. -/
theorem next_shutdown_of_isOver (h : s.IsLawful) (hstop : s.stop = true) (hover : s.IsOver) :
    (s.owner.call? = none →
      s.next B (.call .shutdown) = some { s with owner := .releasing }) ∧
    (s.owner.call? = some .shutdown → s.next B .owner = some (s.answer .stopped)) := by
  constructor
  · intro hcall
    obtain ⟨a, ho⟩ := Owner.call?_eq_none.mp hcall
    simp only [System.next, System.callStep, ho, ← hstop]
  · intro hcall
    have hheld := Worker.ne_held_of_isGone hover.isGone
    simp only [System.next, System.ownerStep, releasing_of_isOver h hover hcall,
      System.dropHeld_eq_self hheld, hover.thread_eq, Bool.false_eq_true, if_false,
      System.answer, ← hover.phase_eq]

/-- A shutdown that returns reports a crash exactly if there has been one and no shutdown has
returned before. -/
theorem Reflects.crashed_of_returned {history : List (Move β)} {m : Mover} {a : Answer}
    (hlawful : s.IsLawful) (h : Reflects B history s) (hmove : System.Moves B s m t)
    (ha : (.shutdown, a) ∈ Move.returned ⟨s, m, t⟩) :
    a = .refused .threadCrashed ∧ ¬ HasShutDown (history.flatMap Move.returned) ∧
        (∃ x ∈ history, x.Crashes B) ∨
      a = .stopped ∧ ¬ (¬ HasShutDown (history.flatMap Move.returned) ∧
        ∃ x ∈ history, x.Crashes B) := by
  obtain ⟨-, -, ⟨ho, ht, rfl⟩ | ⟨ho, crashed, hw, rfl⟩⟩ := shutdown_returned hmove ha
  · -- A thread that crashed would have been there to join.
    refine .inr ⟨rfl, fun ⟨hnot, hcrash⟩ => ?_⟩
    have hthread := h.thread_eq (h.crashed_iff.mpr hcrash) hnot
    exact Bool.false_ne_true (ht.symm.trans hthread)
  · cases crashed with
    | true =>
      refine .inl ⟨rfl, fun hshut => ?_, h.crashed_iff.mp hw⟩
      have hrelies := hlawful.relies_of ho
      exact Bool.false_ne_true ((h.isOver hshut).2.thread_eq.symm.trans hrelies.2.1)
    | false =>
      refine .inr ⟨rfl, fun hcrash => ?_⟩
      cases hw.symm.trans (h.crashed_iff.mpr hcrash.2)

/-- A pipeline answers its owner by its lifecycle along every schedule. -/
theorem followsLifecycle_run (B : Backend β) (config : PipelineConfig) (backend : β)
    (schedule : List Mover) :
    FollowsLifecycle B ((System.new config backend).moves B schedule)
      ((System.new config backend).run B schedule) := by
  have hlawful := System.isLawful_run (B := B) (System.isLawful_new config backend) schedule
  have hreflects : Reflects B ((System.new config backend).moves B schedule)
    ((System.new config backend).run B schedule) := reflects_run B config backend schedule
  constructor
  · exact hreflects.rank_le
  · exact started_run B config backend schedule
  · exact hreflects.held_iff
  · intro hcall hw refusal
    obtain ⟨a, ho⟩ := Owner.call?_eq_none.mp hcall
    simp only [System.next, System.callStep, ho, hw, if_false]
    split <;> rfl
  · intro hshut hcall c
    obtain ⟨a, ho⟩ := Owner.call?_eq_none.mp hcall
    simp only [System.next, System.callStep, ho, (hreflects.isOver hshut).1, if_true]
  · intro hshut
    obtain ⟨hstop, hover⟩ := hreflects.isOver hshut
    exact next_shutdown_of_isOver hlawful hstop hover
  · intro hcall
    refine hlawful.exists_ready ?_
    have hrelies := hlawful.relies
    cases ho : ((System.new config backend).run B schedule).owner <;>
      simp_all [Owner.call?, System.Relies]
  · intro m t hnext a ha
    have hmove := System.moves_of_next hnext
    exact ⟨(shutdown_returned hmove ha).2.1, hreflects.crashed_of_returned hlawful hmove ha⟩

/-- The first of two shutdowns reports that the backend crashed on an update. -/
example :
    let update : Command := .surface ⟨.empty, [], 0, 0, 0, 0, 0, 0, .nv12, 0, none⟩
    let shutDown := [.call .shutdown, .owner, .owner, .owner]
    let start := System.new default ⟨[], .crash, []⟩
    let schedule := [.call (.start none), .owner, .call (.start none), .call (.submit update),
      .owner, .owner, .owner] ++ List.replicate 5 .worker ++ shutDown ++ shutDown ++
      [.call (.submit update), .call (.start none)]
    ((start.moves ScriptedBackend.backend schedule).flatMap Move.returned).map Prod.snd =
      [.started, .refused .alreadyStarted, .submitted 1, .refused .threadCrashed, .stopped,
        .refused .shutDown, .refused .shutDown] := by
  decide +kernel

end FrameEncoder
