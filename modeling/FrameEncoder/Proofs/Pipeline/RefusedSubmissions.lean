import FrameEncoder.Proofs.Pipeline.FrameCounters
import FrameEncoder.Proofs.Pipeline.OwnerCalls

/-!
# Submissions that are refused

A submission that finds the stop flag set is refused before it has touched anything. One that gets
past the flag only to find the encode thread gone, after a crash or because there never was one, is
refused with a number used up and its frame marked as generated. Neither is taken back, so the
frame counters tell of a frame that nobody will ever encode.
-/

namespace FrameEncoder

variable {β : Type} {B : Backend β} {s t u : System β}

/-- A move that marks frames as generated and may take a number, and does nothing else. -/
def Move.OnlyMarks (x : Move β) : Prop :=
  x.after = { x.before with
    flow := (framesOf x.entered).foldl Flow.frameGenerated x.before.flow
    nextSeq := x.after.nextSeq
    owner := x.after.owner }

/-- No frame is marked unless the owner is about to mark it. -/
theorem Move.entered_eq_nil {x : Move β} (h : ∀ seq c, x.before.owner ≠ .marking seq c) :
    x.entered = [] := by
  unfold entered
  split
  · next seq c _ ho => exact absurd ho (h seq c)
  · rfl

/-- How far a submission from a state has got in another, and whether it has marked its frame. -/
inductive Submits (s : System β) (c : Command) (t : System β) : List (Nat × Command) → Prop
  /-- It was refused for the stop flag. -/
  | stopped (ho : t.owner = .ready (some (.refused .shutDown))) (hstop : s.stop = true)
      (hseq : t.nextSeq = s.nextSeq) : Submits s c t []
  | numbering (ho : t.owner = .numbering c) (hstop : s.stop = false)
      (hseq : t.nextSeq = s.nextSeq) : Submits s c t []
  | marking (ho : t.owner = .marking s.nextSeq c) (hstop : s.stop = false)
      (hseq : t.nextSeq = s.nextSeq + 1) : Submits s c t []
  | queueing (ho : t.owner = .queueing s.nextSeq c) (hstop : s.stop = false)
      (hseq : t.nextSeq = s.nextSeq + 1) : Submits s c t [(s.nextSeq, c)]
  | queued (ho : t.owner = .ready (some (.submitted s.nextSeq))) :
      Submits s c t [(s.nextSeq, c)]
  /-- It was refused because the encode thread was gone. -/
  | turnedAway (ho : t.owner = .ready (some (.refused .shutDown))) (hstop : s.stop = false)
      (hgone : t.worker.isGone = true) (hseq : t.nextSeq = s.nextSeq + 1) :
      Submits s c t [(s.nextSeq, c)]

/-- Nobody but the owner changes where its call is or takes a number. -/
theorem owner_eq_of_ne {m : Mover} (hmove : System.Moves B s m t) (howner : m ≠ .owner)
    (hcall : ∀ c, m ≠ .call c) :
    t.owner = s.owner ∧ t.nextSeq = s.nextSeq ∧ Move.entered ⟨s, m, t⟩ = [] := by
  cases m with
  | owner => exact absurd rfl howner
  | call c => exact absurd rfl (hcall c)
  | worker =>
    refine ⟨System.owner_eq_of_worker hmove, ?_, rfl⟩
    cases hmove with
    | @effect e effects hw => cases e <;> rfl
    | _ => rfl
  | _ =>
    cases hmove
    exact ⟨rfl, rfl, rfl⟩

/-- A submission goes on with every move of the owner. -/
theorem submits_owner {c : Command} {entered : List (Nat × Command)}
    (h : Submits s c t entered) (hmove : System.Moves B t .owner u) :
    Submits s c u (entered ++ Move.entered ⟨t, .owner, u⟩) := by
  cases h with
  | stopped ho => cases hmove <;> simp_all
  | numbering ho hstop hseq =>
    rw [Move.entered_eq_nil (by simp [ho]), List.append_nil]
    cases hmove with
    | number ho' =>
      cases ho.symm.trans ho'
      rw [hseq]
      exact .marking rfl hstop rfl
    | _ => simp_all
  | marking ho hstop hseq =>
    rw [show Move.entered ⟨t, .owner, u⟩ = [(s.nextSeq, c)] by simp [Move.entered, ho]]
    cases hmove with
    | mark ho' =>
      cases ho.symm.trans ho'
      exact .queueing rfl hstop hseq
    | _ => simp_all
  | queueing ho hstop hseq =>
    rw [Move.entered_eq_nil (by simp [ho]), List.append_nil]
    cases hmove with
    | queueGone ho' hw => exact .turnedAway rfl hstop hw hseq
    | queue ho' hw =>
      cases ho.symm.trans ho'
      exact .queued rfl
    | _ => simp_all
  | queued ho => cases hmove <;> simp_all
  | turnedAway ho => cases hmove <;> simp_all

/-- A submission goes on with every move until the next call. -/
theorem submits_move {c : Command} {entered : List (Nat × Command)} {m : Mover}
    (h : Submits s c t entered) (hlawful : t.IsLawful) (hmove : System.Moves B t m u)
    (hcall : ∀ c, m ≠ .call c) : Submits s c u (entered ++ Move.entered ⟨t, m, u⟩) := by
  by_cases howner : m = .owner
  · subst howner
    exact submits_owner h hmove
  · obtain ⟨ho', hseq', hentered⟩ := owner_eq_of_ne hmove howner hcall
    rw [hentered, List.append_nil]
    cases h with
    | stopped ho hstop hseq => exact .stopped (ho'.trans ho) hstop (hseq'.trans hseq)
    | numbering ho hstop hseq => exact .numbering (ho'.trans ho) hstop (hseq'.trans hseq)
    | marking ho hstop hseq => exact .marking (ho'.trans ho) hstop (hseq'.trans hseq)
    | queueing ho hstop hseq => exact .queueing (ho'.trans ho) hstop (hseq'.trans hseq)
    | queued ho => exact .queued (ho'.trans ho)
    | turnedAway ho hstop hgone hseq =>
      refine .turnedAway (ho'.trans ho) hstop ?_ (hseq'.trans hseq)
      rw [hlawful.worker_eq_of_gone hgone hmove]
      exact hgone

/-- Of a submission's own moves only the one that queues the command does more than to mark its
frame and to take a number. -/
theorem onlyMarks_or_submitted {c : Command} {m : Mover} (hmove : System.Moves B t m u)
    (hcall : Move.call? ⟨t, m, u⟩ = some (.submit c)) :
    Move.OnlyMarks ⟨t, m, u⟩ ∨ ∃ seq, u.owner = .ready (some (.submitted seq)) := by
  cases hmove with
  | queue ho hw => exact .inr ⟨_, rfl⟩
  | submitStopped ho hs => exact .inl rfl
  | submit ho hs => exact .inl rfl
  | number ho =>
    refine .inl ?_
    rw [Move.OnlyMarks, Move.entered_eq_nil (by simp [ho])]
    rfl
  | @mark seq c ho =>
    refine .inl ?_
    simp only [Move.OnlyMarks, Move.entered, ho, framesOf, List.filterMap_cons,
      List.filterMap_nil]
    cases c.frameId <;> rfl
  | queueGone ho hw =>
    refine .inl ?_
    rw [Move.OnlyMarks, Move.entered_eq_nil (by simp [ho])]
    rfl
  | _ => simp_all [Move.call?, Owner.call?]

/-- The owner's moves until its next call are those of the submission it is in. -/
theorem Submits.call?_eq {c : Command} {entered : List (Nat × Command)} {m : Mover}
    (h : Submits s c t entered) (hmove : System.Moves B t m u) (hcall : ∀ c, m ≠ .call c)
    (hown : Move.call? ⟨t, m, u⟩ ≠ none) : Move.call? ⟨t, m, u⟩ = some (.submit c) := by
  obtain rfl : m = .owner := by
    cases m <;> simp_all [Move.call?]
  cases h with
  | numbering ho => simp [Move.call?, Owner.call?, ho]
  | marking ho => simp [Move.call?, Owner.call?, ho]
  | queueing ho => simp [Move.call?, Owner.call?, ho]
  | _ => simp_all [Move.call?, Owner.call?]

/-- A submission that was refused has taken a number and marked its frame unless the stop flag was
set, and then the encode thread is gone. -/
theorem Submits.eq_of_refused {c : Command} {entered : List (Nat × Command)}
    {error : PipelineError} (h : Submits s c t entered)
    (hrefused : t.owner = .ready (some (.refused error))) :
    error = .shutDown ∧ t.nextSeq = (if s.stop then s.nextSeq else s.nextSeq + 1) ∧
      entered = (if s.stop then [] else [(s.nextSeq, c)]) ∧
      (s.stop = false → t.worker.isGone = true) := by
  cases h with
  | stopped ho hstop hseq =>
    cases hrefused.symm.trans ho
    simp [hstop, hseq]
  | turnedAway ho hstop hgone hseq =>
    cases hrefused.symm.trans ho
    simp [hstop, hseq, hgone]
  | numbering ho => cases hrefused.symm.trans ho
  | marking ho => cases hrefused.symm.trans ho
  | queueing ho => cases hrefused.symm.trans ho
  | queued ho => cases hrefused.symm.trans ho

/-- What a submission that was refused leaves behind: `past` are the moves up to its call, `during`
those from there on. -/
structure LeavesBehind (B : Backend β) (s t : System β) (c : Command) (error : PipelineError)
    (past during : List (Move β)) : Prop where
  error_eq : error = .shutDown
  /-- Neither the totals nor a queue nor anything else but the number to take and the frame
  counters is touched by a move of the call. -/
  onlyMarks : ∀ x ∈ during, x.call? ≠ none → x.OnlyMarks
  /-- A number is used up unless the stop flag was set. -/
  nextSeq_eq : t.nextSeq = if s.stop then s.nextSeq else s.nextSeq + 1
  /-- Likewise the frame is marked as generated. -/
  entered_eq : during.flatMap Move.entered = if s.stop then [] else [(s.nextSeq, c)]
  /-- Without the stop flag there was a crash, or a start that was refused a thread. -/
  cause : s.stop = false → (∃ x ∈ past ++ during, x.Crashes B) ∨ ∃ reason,
    (.start (some reason), .refused (.spawn reason)) ∈ (past ++ during).flatMap Move.returned

/-- The first move of a submission sees the stop flag. -/
theorem submits_call {c : Command} (hready : s.owner.call? = none) :
    ∃ t, s.next B (.call (.submit c)) = some t ∧ Submits s c t [] ∧ t.stop = s.stop ∧
      Move.OnlyMarks ⟨s, .call (.submit c), t⟩ := by
  obtain ⟨a, ho⟩ := Owner.call?_eq_none.mp hready
  cases hstop : s.stop with
  | true =>
    refine ⟨s.answer (.refused .shutDown), ?_, .stopped rfl hstop rfl, hstop, rfl⟩
    simp [System.next, System.callStep, ho, hstop]
  | false =>
    refine ⟨{ s with owner := .numbering c }, ?_, .numbering rfl hstop rfl, hstop, rfl⟩
    simp [System.next, System.callStep, ho, hstop]

/-- Along every schedule without another call a submission goes on, by moves that mark its frame
and take a number unless one of them has queued the command. -/
theorem submits_run {c : Command} (hlawful : t.IsLawful) (hsubmits : Submits s c t [])
    (during : List Mover) :
    (∀ x ∈ t.moves B during, ∀ c, x.mover ≠ .call c) →
      Submits s c (t.run B during) ((t.moves B during).flatMap Move.entered) ∧
        (t.run B during).stop = t.stop ∧
        ((∀ x ∈ t.moves B during, x.call? ≠ none → x.OnlyMarks) ∨
          ∃ seq, (t.run B during).owner = .ready (some (.submitted seq))) := by
  refine System.run_induction_of
    (P := fun history u => (∀ x ∈ history, ∀ c, x.mover ≠ .call c) →
      Submits s c u (history.flatMap Move.entered) ∧ u.stop = t.stop ∧
        ((∀ x ∈ history, x.call? ≠ none → x.OnlyMarks) ∨
          ∃ seq, u.owner = .ready (some (.submitted seq))))
    (I := fun _ u => u.IsLawful) (System.isLawful_run hlawful)
    (fun _ => ⟨hsubmits, rfl, .inl fun x hx => absurd hx List.not_mem_nil⟩) ?_ during
  intro history u m v hu h hnext hcalls
  obtain ⟨hgot, hstop, hmarks⟩ := h fun x hx => hcalls x (List.mem_append_left _ hx)
  have hcall : ∀ c, m ≠ .call c :=
    hcalls ⟨u, m, v⟩ (List.mem_append_right _ (List.mem_singleton_self _))
  have hmove := System.moves_of_next hnext
  have hgoes := submits_move hgot hu hmove hcall
  rw [List.flatMap_append, List.flatMap_singleton]
  refine ⟨hgoes, (System.stop_eq_of_ne_call hmove hcall).trans hstop, ?_⟩
  rcases hmarks with hmarks | ⟨seq, ho⟩
  · by_cases hown : Move.call? ⟨u, m, v⟩ = none
    · refine .inl (List.forall_mem_append.mpr ⟨hmarks, List.forall_mem_singleton.mpr ?_⟩)
      exact fun hnot => absurd hown hnot
    · rcases onlyMarks_or_submitted hmove (hgot.call?_eq hmove hcall hown) with hx | hx
      · exact .inl (List.forall_mem_append.mpr
          ⟨hmarks, List.forall_mem_singleton.mpr fun _ => hx⟩)
      · exact .inr hx
  · -- What was queued stays queued, for the owner makes no move of its own any more.
    refine .inr ⟨seq, ?_⟩
    have howner : m ≠ .owner := by
      rintro rfl
      simp only [System.next, System.ownerStep, ho, reduceCtorEq] at hnext
    exact (owner_eq_of_ne hmove howner hcall).1.trans ho

/-- A submission that is refused leaves a number used up and its frame marked as generated, unless
the stop flag was set, and nothing else. -/
theorem leavesBehind_run (B : Backend β) (config : PipelineConfig) (backend : β)
    (before during : List Mover) (c : Command) (error : PipelineError)
    (hready : ((System.new config backend).run B before).owner.call? = none)
    (hcalls : ∀ m ∈ during, ∀ c, m ≠ .call c)
    (hrefused : (((System.new config backend).run B before).run B
      (.call (.submit c) :: during)).owner = .ready (some (.refused error))) :
    let start := System.new config backend
    let s := start.run B before
    LeavesBehind B s (s.run B (.call (.submit c) :: during)) c error (start.moves B before)
      (s.moves B (.call (.submit c) :: during)) := by
  intro start s
  obtain ⟨first, hfirst, hsubmits, hkept, hcall⟩ := submits_call (B := B) (c := c) hready
  have hrun : s.run B (.call (.submit c) :: during) = first.run B during := by
    rw [System.run, hfirst]
  have hmoves : s.moves B (.call (.submit c) :: during) =
      ⟨s, .call (.submit c), first⟩ :: first.moves B during := by
    rw [System.moves, hfirst]
  have hreflects : Reflects B (start.moves B before ++ s.moves B (.call (.submit c) :: during))
      (s.run B (.call (.submit c) :: during)) := by
    rw [← System.run_append, ← System.moves_append]
    exact reflects_run B config backend _
  rw [hmoves, hrun] at hreflects ⊢
  rw [hrun] at hrefused
  have hlawful : first.IsLawful := System.isLawful_move
    (System.isLawful_run (System.isLawful_new config backend) before) (System.moves_of_next hfirst)
  obtain ⟨hgot, hstop, hmarks⟩ := submits_run hlawful hsubmits during
    fun x hx => hcalls x.mover (System.mover_mem hx)
  obtain ⟨herror, hseq, hentered, hgone⟩ := hgot.eq_of_refused hrefused
  constructor
  · exact herror
  · refine List.forall_mem_cons.mpr ⟨fun _ => hcall, hmarks.resolve_right ?_⟩
    rintro ⟨seq, ho⟩
    cases hrefused.symm.trans ho
  · exact hseq
  · exact hentered
  · intro hset
    cases hw : (first.run B during).worker with
    | gone crashed =>
      cases crashed with
      | true => exact .inl (hreflects.crashed_iff.mp hw)
      | false =>
        refine .inr ((hreflects.ends hw).resolve_left fun hnot => ?_)
        exact Bool.false_ne_true (hset.symm.trans ((hstop.trans hkept).symm.trans hnot))
    | _ =>
      have hnot := hgone hset
      rw [hw] at hnot
      cases hnot

/-- The encode thread crashes on an update that bears a frame. -/
def crashOnFrame : List Mover :=
  [.call (.start none), .owner, .call (.submit (blankFrame 1)), .owner, .owner, .owner] ++
    List.replicate 5 .worker

/-- After a crash a submission is refused with the second number used up and its frame counted as
generated. -/
theorem leavesBehind_crashOnFrame :
    let B := ScriptedBackend.backend
    let start := System.new default ⟨[], .crash, []⟩
    let s := start.run B crashOnFrame
    let during : List Mover := [.owner, .owner, .owner]
    let t := s.run B (.call (.submit (blankFrame 2)) :: during)
    (s.owner.call? = none ∧ (∀ m ∈ during, ∀ c, m ≠ .call c) ∧
      t.owner = .ready (some (.refused .shutDown))) ∧
      (s.nextSeq = 2 ∧ t.nextSeq = 3) ∧ (s.flow.generated = 1 ∧ t.flow.generated = 2) ∧
      LeavesBehind B s t (blankFrame 2) .shutDown (start.moves B crashOnFrame)
        (s.moves B (.call (.submit (blankFrame 2)) :: during)) := by
  intro B start s during t
  have hready : s.owner.call? = none := by decide +kernel
  have hcalls : ∀ m ∈ during, ∀ c, m ≠ .call c := by simp [during]
  have hrefused : t.owner = .ready (some (.refused .shutDown)) := by decide +kernel
  exact ⟨⟨hready, hcalls, hrefused⟩, by decide +kernel, by decide +kernel,
    leavesBehind_run B default _ crashOnFrame during (blankFrame 2) .shutDown hready hcalls
      hrefused⟩

end FrameEncoder
