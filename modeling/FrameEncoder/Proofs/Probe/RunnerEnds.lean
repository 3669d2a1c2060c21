import FrameEncoder.Proofs.Probe.RunnerAccounts
import Mathlib.Order.RelClasses

/-!
# Runs of a runner come to rest

Every move takes the runner on in its program, or the encode thread on with its queue, or a result
out of the queue of results, and none takes back what comes before in this order. So every run comes
to rest, however the moves of both threads alternate. It rests where the runner is done, or where it
waits for a result while no command is left that could give one.
-/

namespace FrameEncoder

/-- The moves of the owner until its call returns, if it need not wait. -/
def Owner.stepsLeft : Owner → Nat
  | .ready _ => 0
  | .spawning _ | .queueing _ _ | .joining => 1
  | .marking _ _ | .waking => 2
  | .numbering _ | .releasing => 3

/-- Whether no command is queued or being dealt with. -/
structure System.IsQuiet {β : Type} (s : System β) : Prop where
  waiting_eq : s.worker.waiting s.inbound = []
  inHand_eq : s.worker.inHand = []
  effects_eq : s.worker.effects = []

namespace System

variable {β : Type} {B : Backend β} {s t : System β}

/-- Every further move of the owner brings its call closer to its end. -/
theorem stepsLeft_ownerStep (hs : s.ownerStep B = some t) :
    t.owner.stepsLeft < s.owner.stepsLeft := by
  cases moves_of_ownerStep hs <;> simp [Owner.stepsLeft, answer, *]

/-- No call takes more moves than a submission or a shutdown. -/
theorem stepsLeft_callStep {c : Call} (hs : s.callStep c = some t) : t.owner.stepsLeft ≤ 3 := by
  unfold callStep at hs
  split at hs
  · cases hs
    split
    · split
      · exact Nat.le_add_left 1 2
      · split <;> exact Nat.zero_le 3
    · split
      · exact Nat.zero_le 3
      · exact Nat.le_refl 3
    · exact Nat.le_refl 3
  · cases hs

/-- An owner that is in no call can make any. -/
theorem exists_callStep {a : Option Answer} (ho : s.owner = .ready a) (c : Call) :
    ∃ t, s.callStep c = some t := by
  unfold callStep
  rw [ho]
  exact ⟨_, rfl⟩

/-- An owner in a call goes on with it unless it waits for the encode thread to end. -/
theorem exists_ownerStep (hready : ∀ a, s.owner ≠ .ready a) (hjoining : s.owner ≠ .joining) :
    ∃ t, s.ownerStep B = some t := by
  unfold ownerStep
  split
  · next ho => exact absurd ho (hready _)
  · exact ⟨_, rfl⟩
  · exact ⟨_, rfl⟩
  · exact ⟨_, rfl⟩
  · exact ⟨_, rfl⟩
  · exact ⟨_, rfl⟩
  · exact ⟨_, rfl⟩
  · exact ⟨_, rfl⟩
  · next ho => exact absurd ho hjoining

/-- An encode thread that is there and cannot move waits for a message. -/
theorem IsServing.receiving_of_blocked (h : s.IsServing) (hs : s.workerStep B = none) :
    s.worker = .receiving ∧ s.inbound = [] := by
  unfold workerStep at hs
  split at hs
  · next hw => exact absurd hw h.ne_held
  · next hw =>
    have hgone := h.isGone_eq
    rw [hw] at hgone
    cases hgone
  · cases hs
  · next hw =>
    split at hs
    · next hi => exact ⟨hw, hi⟩
    · cases hs
  · cases hs
  · cases hs
  · cases hs
  · cases hs
  · cases hs

end System

namespace Probe

/-- A bound on the moves a runner makes until its program ends, without those for results. A runner
goes back and forth between asking and taking a result, so both places count alike. -/
def RunnerPlace.programLeft (frames owner : Nat) : RunnerPlace → Nat
  | .opening => 6 * frames + 13
  | .launching => 6 * frames + 12
  | .starting => 6 * frames + 8 + owner
  | .looping index => 6 * (frames - index) + 7
  | .gating index | .waiting index => 6 * (frames - index) + 6
  | .submitting index => 6 * (frames - index) + 2 + owner
  | .finishing | .awaiting => 6
  | .stopping => 2 + owner
  | .draining => 1
  | .acknowledging _ next => next.programLeft frames owner
  | .abandoning _ => 1 + owner
  | .done _ => 0

/-- The moves a runner makes until it takes the next result, or goes on in its program. -/
def RunnerPlace.detour : RunnerPlace → Nat
  | .acknowledging _ next => next.detour + 1
  | .gating _ | .finishing => 1
  | _ => 0

namespace Runner

variable {β : Type} {B : Backend β} {early : Prop} {r t : Runner β} {m : Option Mover}
  {config : Config} {backend : β} {schedule : List Mover}

/-- What is left of the program of a runner where it is. -/
def programLeft (r : Runner β) : Nat :=
  r.place.programLeft r.config.workload.frames.toNat r.system.owner.stepsLeft

/-- What is left to do for the encode thread with the messages that are there. -/
def workLeft (r : Runner β) : Nat × Nat × Nat :=
  (r.system.inbound.length, r.system.worker.rank, r.system.worker.pending)

/-- What is left to do for the runner with the results that are there. -/
def resultsLeft (r : Runner β) : Nat × Nat := (r.system.outbound.length, r.place.detour)

/-- Whether a runner is closer to rest than another. -/
def Nearer : Runner β → Runner β → Prop :=
  InvImage (Prod.Lex (· < ·) (Prod.Lex (Prod.Lex (· < ·) (Prod.Lex (· < ·) (· < ·)))
    (Prod.Lex (· < ·) (· < ·)))) fun r => (r.programLeft, r.workLeft, r.resultsLeft)

/-- No runner comes closer to rest forever. -/
theorem nearer_wf : WellFounded (Nearer (β := β)) := by
  have hlt : WellFounded fun a b : Nat => a < b := Nat.lt_wfRel.wf
  exact InvImage.wf _ (hlt.prod_lex ((hlt.prod_lex (hlt.prod_lex hlt)).prod_lex (hlt.prod_lex hlt)))

/-- A runner that goes on in its program is closer to rest. -/
theorem nearer_of_program (h : t.programLeft < r.programLeft) : t.Nearer r := .left _ _ h

/-- A runner whose encode thread goes on is closer to rest. -/
theorem nearer_of_work (hprogram : t.programLeft = r.programLeft)
    (h : Prod.Lex (· < ·) (Prod.Lex (· < ·) (· < ·)) t.workLeft r.workLeft) : t.Nearer r := by
  rw [Nearer, InvImage, hprogram]
  exact .right _ (.left _ _ h)

/-- A runner that takes a result, or goes on after one, is closer to rest. -/
theorem nearer_of_results (hprogram : t.programLeft = r.programLeft)
    (hwork : t.workLeft = r.workLeft)
    (h : Prod.Lex (· < ·) (· < ·) t.resultsLeft r.resultsLeft) : t.Nearer r := by
  rw [Nearer, InvImage, hprogram, hwork]
  exact .right _ (.right _ h)

/-- A call takes a runner on in its program. -/
theorem Calls.nearer {c : Call} {next : RunnerPlace} {s : System β} (hc : r.Calls c next)
    (hat : r.At early r.place) (hs : r.system.callStep c = some s) :
    ({ r with system := s, place := next }).Nearer r := by
  have hsteps := System.stepsLeft_callStep hs
  refine nearer_of_program ?_
  cases hc with
  | abandon hp ho => exact absurd ho (hat.ne_refused hp _)
  | start hp | dispatch hp hf | dispatchClosed hp hclosed | stop hp ht | stopClosed hp hclosed =>
    simp only [programLeft, RunnerPlace.programLeft, hp]
    omega

/-- The owner takes a runner in a call on in its program. -/
theorem nearer_of_owner {s : System β} (hp : r.place.inCall = true)
    (hs : r.system.ownerStep B = some s) : ({ r with system := s }).Nearer r := by
  have hsteps := System.stepsLeft_ownerStep hs
  refine nearer_of_program ?_
  cases hplace : r.place with
  | starting | submitting i | stopping | abandoning e =>
    simp only [programLeft, RunnerPlace.programLeft, hplace]
    omega
  | _ =>
    rw [hplace] at hp
    cases hp

/-- A runner that takes a result is closer to rest, whether it acknowledges a frame or not. -/
theorem nearer_of_receive {next : RunnerPlace} {result : EncodeResult} {s : System β}
    (hp : r.place.onResult? = some next) (hs : r.system.receive = some (result, s)) :
    (({ r with system := s }).record result next).Nearer r := by
  obtain ⟨rest, hout, rfl⟩ := System.outbound_of_receive hs
  have hnext : next.programLeft r.config.workload.frames.toNat r.system.owner.stepsLeft =
      r.programLeft := by
    unfold programLeft
    cases hplace : r.place <;> rw [hplace] at hp <;> cases hp <;> rfl
  refine nearer_of_results (Eq.trans ?_ hnext) rfl (.left _ _ ?_)
  · rw [programLeft]
    rcases place_record { r with system := { r.system with outbound := rest } } result next with
      hplace | ⟨id, hplace⟩ <;> rw [hplace] <;> rfl
  · show rest.length < r.system.outbound.length
    rw [hout]
    exact Nat.lt_succ_self _

/-- A step of a runner that touches nothing shared takes it closer to rest. -/
theorem Passes.nearer (ht : r.Passes t) (hat : r.At early r.place) : t.Nearer r := by
  cases ht with
  | throttle hp hf =>
    refine nearer_of_results ?_ rfl (.right _ ?_)
    · simp only [programLeft, RunnerPlace.programLeft, hp]
    · simp [RunnerPlace.detour, hp]
  | lack hp ht =>
    refine nearer_of_results ?_ rfl (.right _ ?_)
    · simp only [programLeft, RunnerPlace.programLeft, hp]
    · simp [RunnerPlace.detour, hp]
  | @submitted i a hp ho ha =>
    rw [hp] at hat
    have hlt : i < r.config.workload.frames.toNat := hat.2.2.1
    refine nearer_of_program ?_
    simp only [programLeft, RunnerPlace.programLeft, hp]
    omega
  | started hp ho ha | next hp hi | leave hp hi | stopped hp ho ha | finish hp hs
    | abandoned hp ho =>
    refine nearer_of_program ?_
    simp only [programLeft, RunnerPlace.programLeft, hp]
    omega

/-- Every move of a runner or of its encode thread brings the runner closer to rest. -/
theorem Moves.nearer (hmove : r.Moves B False m t) (hat : r.At early r.place) : t.Nearer r := by
  cases hmove with
  | opening hp =>
    refine nearer_of_program ?_
    simp only [programLeft, RunnerPlace.programLeft, hp]
    exact Nat.lt_succ_self _
  | call hc hs => exact hc.nearer hat hs
  | owner hp hs => exact nearer_of_owner hp hs
  | receive hp hs => exact nearer_of_receive hp hs
  | acknowledge hp =>
    refine nearer_of_results ?_ rfl (.right _ ?_)
    · simp only [programLeft, RunnerPlace.programLeft, hp]
      rfl
    · simp [RunnerPlace.detour, hp]
  | worker hs =>
    refine nearer_of_work ?_ (System.workerStep_decreases B hs)
    simp only [programLeft, System.owner_eq_of_worker (System.moves_of_workerStep hs)]
  | pass ht => exact ht.nearer hat
  | halt h => exact h.elim

/-- Whether a runner waits for a result although no result is there, and no command is queued or
being dealt with that could give one. -/
structure Starves (r : Runner β) : Prop where
  waits : (∃ i, r.place = .waiting i) ∨ r.place = .awaiting
  /-- The runner is not told that no result will come. -/
  closed_eq : r.system.closed = false
  outbound_eq : r.system.outbound = []
  isQuiet : r.system.IsQuiet

/-- A runner whose owner is in no call can make any. -/
theorem exists_call {a : Option Answer} (ho : r.system.owner = .ready a) (c : Call)
    (next : RunnerPlace) : ∃ t, r.call c next = some t := by
  obtain ⟨s, hs⟩ := System.exists_callStep ho c
  exact ⟨{ r with system := s, place := next }, by rw [call, hs]; rfl⟩

/-- In a call the owner can go on with it, or the encode thread can move, or the call has
returned. -/
theorem At.moves_on (h : r.At early r.place) (hr : r.IsSound) (hp : r.place.inCall = true) :
    (∃ s, r.system.ownerStep B = some s) ∨ (∃ s, r.system.workerStep B = some s) ∨
      ∃ a, r.system.owner = .ready a := by
  by_cases hready : ∃ a, r.system.owner = .ready a
  · exact .inr (.inr hready)
  · have hcalling : ∀ a, r.system.owner ≠ .ready a := fun a ho => hready ⟨a, ho⟩
    cases hplace : r.place with
    | starting =>
      rw [hplace] at h
      rcases h.1 with ho | ⟨-, ho⟩
      · exact .inl (System.exists_ownerStep hcalling (by simp [ho]))
      · exact absurd ho (hcalling _)
    | submitting i =>
      rw [hplace] at h
      refine .inl (System.exists_ownerStep hcalling fun ho => ?_)
      have hsubmitting := h.2.2.2.2
      rw [ho] at hsubmitting
      exact hsubmitting
    | stopping =>
      rw [hplace] at h
      exact (hr.lawful.can_move (B := B) h.1.stop_eq hcalling).imp
        (fun hs => Option.isSome_iff_exists.mp hs) fun hs => .inl (Option.isSome_iff_exists.mp hs)
    | abandoning e =>
      rw [hplace] at h
      exact h.elim
    | _ =>
      rw [hplace] at hp
      cases hp

/-- A runner that can leave its call can go on, itself or by its encode thread. -/
theorem exists_step_of_throughCall {leave : Option Answer → Option (Runner β)}
    (h : r.At early r.place) (hr : r.IsSound) (hp : r.place.inCall = true)
    (hstep : r.step B = r.throughCall B leave)
    (hleave : ∀ a, r.system.owner = .ready a → ∃ t, leave a = some t) : ∃ t, Step B r t := by
  rcases h.moves_on (B := B) hr hp with ⟨s, hs⟩ | ⟨s, hs⟩ | ⟨a, ho⟩
  · refine ⟨{ r with system := s }, .runner (hstep.trans ?_)⟩
    unfold throughCall
    split
    · next ho =>
      rw [System.ownerStep, ho] at hs
      cases hs
    · rw [hs]
      rfl
  · exact ⟨_, .worker hs⟩
  · obtain ⟨t, ht⟩ := hleave a ho
    refine ⟨t, .runner (hstep.trans ?_)⟩
    rw [throughCall, ho]
    exact ht

/-- A runner in a call can go on, itself or by its encode thread. -/
theorem At.exists_step_of_inCall (h : r.At early r.place) (hr : r.IsSound)
    (hp : r.place.inCall = true) : ∃ t, Step B r t := by
  cases hplace : r.place with
  | starting | submitting i | stopping =>
    refine exists_step_of_throughCall h hr hp (by rw [step, hplace]) fun a ho => ?_
    split
    · exact exists_call ho _ _
    · exact ⟨_, rfl⟩
  | abandoning e =>
    rw [hplace] at h
    exact h.elim
  | _ =>
    rw [hplace] at hp
    cases hp

/-- A runner that waits for a result takes one, or its encode thread can move, or it starves. -/
theorem Idles.exists_step_or_starves {next : RunnerPlace} (h : r.Idles)
    (hwaits : (∃ i, r.place = .waiting i) ∨ r.place = .awaiting)
    (hstep : r.step B = r.take next) : (∃ t, Step B r t) ∨ r.Starves := by
  cases hout : r.system.outbound with
  | cons result rest =>
    refine .inl ⟨({ r with system := { r.system with outbound := rest } }).record result next,
      .runner (hstep.trans ?_)⟩
    rw [take, System.receive, hout]
    rfl
  | nil =>
    cases hs : r.system.workerStep B with
    | some s => exact .inl ⟨_, .worker hs⟩
    | none =>
      obtain ⟨hw, hi⟩ := h.1.receiving_of_blocked hs
      refine .inr ⟨hwaits, h.closed_eq, hout, ?_, ?_, ?_⟩
      · rw [hw, hi]
        rfl
      · rw [hw]
        rfl
      · rw [hw]
        rfl

/-- A runner is done, or starves, or can go on, itself or by its encode thread. -/
theorem Keeps.step_or_rests (h : r.Keeps early) (hr : r.IsSound) :
    (∃ t, Step B r t) ∨ (∃ report, r.place = .done report) ∨ r.Starves := by
  have hat := h.at_place
  by_cases hp : r.place.inCall = true
  · exact .inl (hat.exists_step_of_inCall hr hp)
  have hgoes {t : Runner β} (hs : r.step B = some t) :
      (∃ t, Step B r t) ∨ (∃ report, r.place = .done report) ∨ r.Starves :=
    .inl ⟨t, .runner hs⟩
  obtain ⟨p, hplace⟩ : ∃ p, r.place = p := ⟨_, rfl⟩
  rw [hplace] at hat hp
  cases p with
  | opening => exact hgoes (by rw [step, hplace])
  | launching =>
    obtain ⟨t, ht⟩ := exists_call hat.1 (.start none) .starting
    exact hgoes (by rw [step, hplace]; exact ht)
  | looping i =>
    by_cases hi : i < r.config.workload.frames.toNat ∧ r.running
    · exact hgoes (by rw [step, hplace]; exact if_pos hi)
    · exact hgoes (by rw [step, hplace]; exact if_neg hi)
  | gating i =>
    obtain ⟨a, ho⟩ := hat.1.2
    by_cases hf : r.system.flow.mayDispatch = true
    · obtain ⟨t, ht⟩ := exists_call ho (.submit (r.frameCommand i)) (.submitting i)
      exact hgoes (by rw [step, hplace]; exact (if_pos hf).trans ht)
    · exact hgoes (by rw [step, hplace]; exact if_neg hf)
  | waiting i =>
    have hstep : r.step B = r.take (.gating i) := by
      rw [step, hplace]
      exact if_neg (by simp [hat.1.closed_eq])
    exact (hat.1.exists_step_or_starves (.inl ⟨i, hplace⟩) hstep).imp_right .inr
  | finishing =>
    by_cases hlack : r.tally.completed < r.submitted
    · exact hgoes (by rw [step, hplace]; exact if_pos hlack)
    · obtain ⟨a, ho⟩ := hat.1.2
      obtain ⟨t, ht⟩ := exists_call ho .shutdown .stopping
      exact hgoes (by rw [step, hplace]; exact (if_neg hlack).trans ht)
  | awaiting =>
    have hstep : r.step B = r.take .finishing := by
      rw [step, hplace]
      exact if_neg (by simp [hat.1.closed_eq])
    exact (hat.1.exists_step_or_starves (.inr hplace) hstep).imp_right .inr
  | draining =>
    cases hs : r.take .draining with
    | some t => exact hgoes (t := t) (by rw [step, hplace]; simp only [hs])
    | none =>
      exact hgoes (t := { r with running := false, place := .done (.ok r.report) })
        (by rw [step, hplace]; simp only [hs])
  | acknowledging id next => exact hgoes (by rw [step, hplace])
  | done report => exact .inr (.inl ⟨report, hplace⟩)
  | starting | submitting i | stopping | abandoning e => exact absurd rfl hp

/-- Whether every run from a runner on comes to a state of a kind, however the moves of the runner
and of its encode thread alternate. -/
inductive Inevitable (B : Backend β) (P : Runner β → Prop) : Runner β → Prop
  | here {r : Runner β} (h : P r) : Inevitable B P r
  | ahead {r : Runner β} (hstep : ∃ t, Step B r t) (hall : ∀ t, Step B r t → Inevitable B P t) :
      Inevitable B P r

/-- What is inevitable can happen. -/
theorem Inevitable.exists_reachable {P : Runner β → Prop} (h : Inevitable B P r) :
    ∃ t, Relation.ReflTransGen (Step B) r t ∧ P t := by
  induction h with
  | here h => exact ⟨_, .refl, h⟩
  | ahead hstep _ ih =>
    obtain ⟨t, ht⟩ := hstep
    obtain ⟨u, hu, h⟩ := ih t ht
    exact ⟨u, .head ht hu, h⟩

/-- Every run of a runner comes to rest: to a state in which the runner is done or starves. -/
theorem Reached.inevitable {P : Runner β → Prop} (hB : B.NeverCrashes backend)
    (hrests : ∀ schedule r, Reached B False (new config backend) schedule r →
      (∃ report, r.place = .done report) ∨ r.Starves → P r)
    (h : Reached B False (new config backend) schedule r) : Inevitable B P r := by
  -- Which thread moves next is open, so the induction is on how close to rest the runner is.
  induction r using nearer_wf.induction generalizing schedule with
  | _ r ih =>
    have hkeeps := h.keeps hB
    rcases hkeeps.step_or_rests (B := B) (h.isSound hB) with hstep | hrest
    · refine .ahead hstep fun t ht => ?_
      obtain ⟨m, hm⟩ := moves_of_step ht
      exact ih t (hm.nearer hkeeps.at_place) (h.move hm)
    · exact .here (hrests schedule r h hrest)

end Runner

end Probe

end FrameEncoder
