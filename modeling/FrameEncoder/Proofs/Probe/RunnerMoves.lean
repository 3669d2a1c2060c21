import FrameEncoder.Probe.Runner
import FrameEncoder.Proofs.Pipeline.Shutdown

/-!
# The moves of a runner

Each step of a runner is at most one move of its pipeline: it uses the frame counters, makes a call
or goes on with one, or takes a result. The other steps are its own. So the pipeline of a runner
follows a schedule, in which the moves of the runner and those of the encode thread alternate in
any way, and the results the runner has counted are those received along it.
-/

namespace FrameEncoder.Probe

/-- Whether a runner is in a call to its pipeline. -/
def RunnerPlace.inCall : RunnerPlace → Bool
  | starting | submitting _ | stopping | abandoning _ => true
  | _ => false

/-- Where a runner goes on after a result, if it takes results where it is. -/
def RunnerPlace.onResult? : RunnerPlace → Option RunnerPlace
  | waiting index => some (gating index)
  | awaiting => some finishing
  | draining => some draining
  | _ => none

namespace Runner

variable {β : Type}

/-- The calls a runner can make, with the places it makes them from and goes on from. -/
inductive Calls (r : Runner β) : Call → RunnerPlace → Prop
  | start (hp : r.place = .launching) : Calls r (.start none) .starting
  | dispatch {i : Nat} (hp : r.place = .gating i) (hf : r.system.flow.mayDispatch = true) :
      Calls r (.submit (r.frameCommand i)) (.submitting i)
  /-- No result will come any more. -/
  | dispatchClosed {i : Nat} (hp : r.place = .waiting i) (hc : r.system.closed = true) :
      Calls r (.submit (r.frameCommand i)) (.submitting i)
  | stop (hp : r.place = .finishing) (ht : r.submitted ≤ r.tally.completed) :
      Calls r .shutdown .stopping
  | stopClosed (hp : r.place = .awaiting) (hc : r.system.closed = true) :
      Calls r .shutdown .stopping
  /-- The call before was refused. -/
  | abandon {e : PipelineError} (hp : r.place.inCall = true)
      (ho : r.system.owner = .ready (some (.refused e))) : Calls r .shutdown (.abandoning e)

/-- The steps of a runner that touch nothing it shares. -/
inductive Passes (r : Runner β) : Runner β → Prop
  | started {a : Option Answer} (hp : r.place = .starting) (ho : r.system.owner = .ready a)
      (ha : ∀ e, a ≠ some (.refused e)) : Passes r { r with place := .looping 0 }
  | next {i : Nat} (hp : r.place = .looping i) (hi : i < r.config.workload.frames.toNat) :
      Passes r { r with place := .gating i }
  /-- All frames are submitted, or the workload was stopped. -/
  | leave {i : Nat} (hp : r.place = .looping i)
      (hi : i < r.config.workload.frames.toNat → r.running = false) :
      Passes r { r with place := .finishing }
  | throttle {i : Nat} (hp : r.place = .gating i) (hf : r.system.flow.mayDispatch = false) :
      Passes r { r with place := .waiting i }
  | submitted {i : Nat} {a : Option Answer} (hp : r.place = .submitting i)
      (ho : r.system.owner = .ready a) (ha : ∀ e, a ≠ some (.refused e)) :
      Passes r { r with submitted := r.submitted + 1, place := .looping (i + 1) }
  | lack (hp : r.place = .finishing) (ht : r.tally.completed < r.submitted) :
      Passes r { r with place := .awaiting }
  | stopped {a : Option Answer} (hp : r.place = .stopping) (ho : r.system.owner = .ready a)
      (ha : ∀ e, a ≠ some (.refused e)) : Passes r { r with place := .draining }
  | finish (hp : r.place = .draining) (hs : r.system.outbound = []) :
      Passes r { r with running := false, place := .done (.ok r.report) }
  | abandoned {e : PipelineError} {a : Option Answer} (hp : r.place = .abandoning e)
      (ho : r.system.owner = .ready a) : Passes r { r with place := .done (.error e) }

/-- Every way a runner and its encode thread can move on, with the move of the pipeline if there is
one. The running flag may be cleared at any time if the workload may be stopped early. -/
inductive Moves (B : Backend β) (early : Prop) (r : Runner β) : Option Mover → Runner β → Prop
  | opening (hp : r.place = .opening) :
      Moves B early r (some (.flow (.suppress r.config.workload.ackOff)))
        { r with
          system := r.system.useFlow (.suppress r.config.workload.ackOff)
          place := .launching }
  | call {c : Call} {next : RunnerPlace} {s : System β} (hc : r.Calls c next)
      (hs : r.system.callStep c = some s) :
      Moves B early r (some (.call c)) { r with system := s, place := next }
  | owner {s : System β} (hp : r.place.inCall = true) (hs : r.system.ownerStep B = some s) :
      Moves B early r (some .owner) { r with system := s }
  | receive {next : RunnerPlace} {result : EncodeResult} {s : System β}
      (hp : r.place.onResult? = some next) (hs : r.system.receive = some (result, s)) :
      Moves B early r (some .receive) ({ r with system := s }.record result next)
  | acknowledge {id : UInt32} {next : RunnerPlace} (hp : r.place = .acknowledging id next) :
      Moves B early r (some (.flow (.acknowledged id)))
        { r with system := r.system.useFlow (.acknowledged id), place := next }
  | worker {s : System β} (hs : r.system.workerStep B = some s) :
      Moves B early r (some .worker) { r with system := s }
  | pass {t : Runner β} (ht : r.Passes t) : Moves B early r none t
  | halt (h : early) : Moves B early r none { r with running := false }

variable {B : Backend β} {early : Prop} {r t : Runner β}

/-- A runner goes on with a call, or leaves it by its answer. -/
theorem throughCall_cases {leave : Option Answer → Option (Runner β)}
    (h : r.throughCall B leave = some t) :
    (∃ s, r.system.ownerStep B = some s ∧ t = { r with system := s }) ∨
      ∃ a, r.system.owner = .ready a ∧ leave a = some t := by
  unfold throughCall at h
  split at h
  · next a ho => exact .inr ⟨a, ho, h⟩
  · obtain ⟨s, hs, rfl⟩ := Option.map_eq_some_iff.mp h
    exact .inl ⟨s, hs, rfl⟩

/-- What a runner does in a call: it goes on with it, gives up after a refusal, or passes on. -/
theorem moves_of_throughCall {leave : Option Answer → Option (Runner β)}
    (hp : r.place.inCall = true) (h : r.throughCall B leave = some t)
    (hleave : ∀ a, r.system.owner = .ready a → leave a = some t →
      (∃ e, a = some (.refused e) ∧ r.abandon e = some t) ∨ r.Passes t) :
    ∃ m, r.Moves B early m t := by
  rcases throughCall_cases h with ⟨s, hs, rfl⟩ | ⟨a, ho, ha⟩
  · exact ⟨_, .owner hp hs⟩
  · rcases hleave a ho ha with ⟨e, rfl, habandon⟩ | hpass
    · obtain ⟨s, hs, rfl⟩ := Option.map_eq_some_iff.mp habandon
      exact ⟨_, .call (.abandon hp ho) hs⟩
    · exact ⟨_, .pass hpass⟩

/-- A runner takes a result where it takes results. -/
theorem moves_of_take {next : RunnerPlace} (hp : r.place.onResult? = some next)
    (h : r.take next = some t) : ∃ m, r.Moves B early m t := by
  obtain ⟨⟨result, s⟩, hs, rfl⟩ := Option.map_eq_some_iff.mp h
  exact ⟨_, .receive hp hs⟩

/-- A runner makes a call it can make. -/
theorem moves_of_call {c : Call} {next : RunnerPlace} (hc : r.Calls c next)
    (h : r.call c next = some t) : ∃ m, r.Moves B early m t := by
  obtain ⟨s, hs, rfl⟩ := Option.map_eq_some_iff.mp h
  exact ⟨_, .call hc hs⟩

/-- Every step of a runner is one of these moves. -/
theorem moves_of_runnerStep (h : r.step B = some t) : ∃ m, r.Moves B early m t := by
  unfold step at h
  split at h
  · next hp =>
    cases h
    exact ⟨_, .opening hp⟩
  · next hp => exact moves_of_call (.start hp) h
  · next hp =>
    refine moves_of_throughCall (by rw [hp]; rfl) h fun a ho ha => ?_
    split at ha
    · exact .inl ⟨_, rfl, ha⟩
    · next hnot =>
      cases ha
      exact .inr (.started hp ho fun e he => hnot e he)
  · next i hp =>
    split at h
    · next hi =>
      cases h
      exact ⟨_, .pass (.next hp hi.1)⟩
    · next hi =>
      cases h
      exact ⟨_, .pass (.leave hp fun hlt => Bool.eq_false_iff.mpr fun hr => hi ⟨hlt, hr⟩)⟩
  · next i hp =>
    split at h
    · next hf => exact moves_of_call (.dispatch hp hf) h
    · next hf =>
      cases h
      exact ⟨_, .pass (.throttle hp (Bool.eq_false_iff.mpr hf))⟩
  · next i hp =>
    split at h
    · next hc => exact moves_of_call (.dispatchClosed hp hc) h
    · exact moves_of_take (by rw [hp]; rfl) h
  · next i hp =>
    refine moves_of_throughCall (by rw [hp]; rfl) h fun a ho ha => ?_
    split at ha
    · exact .inl ⟨_, rfl, ha⟩
    · next hnot =>
      cases ha
      exact .inr (.submitted hp ho fun e he => hnot e he)
  · next hp =>
    split at h
    · next ht =>
      cases h
      exact ⟨_, .pass (.lack hp ht)⟩
    · next ht => exact moves_of_call (.stop hp (UInt32.not_lt.mp ht)) h
  · next hp =>
    split at h
    · next hc => exact moves_of_call (.stopClosed hp hc) h
    · exact moves_of_take (by rw [hp]; rfl) h
  · next hp =>
    refine moves_of_throughCall (by rw [hp]; rfl) h fun a ho ha => ?_
    split at ha
    · exact .inl ⟨_, rfl, ha⟩
    · next hnot =>
      cases ha
      exact .inr (.stopped hp ho fun e he => hnot e he)
  · next hp =>
    split at h
    · next hr =>
      cases h
      exact moves_of_take (by rw [hp]; rfl) hr
    · next hr =>
      cases h
      have hnone := Option.map_eq_none_iff.mp hr
      exact ⟨_, .pass (.finish hp (System.receive_eq_none_iff.mp hnone))⟩
  · next id next hp =>
    cases h
    exact ⟨_, .acknowledge hp⟩
  · next e hp =>
    refine moves_of_throughCall (by rw [hp]; rfl) h fun a ho ha => ?_
    cases ha
    exact .inr (.abandoned hp ho)
  · cases h

/-- Every step of a runner and its encode thread is one of these moves. -/
theorem moves_of_step (h : Step B r t) : ∃ m, r.Moves B early m t := by
  cases h with
  | runner hr => exact moves_of_runnerStep hr
  | worker hs => exact ⟨_, .worker hs⟩

/-- After a result a runner goes on where it was about to, or acknowledges the frame first that the
result completes. -/
theorem place_record (r : Runner β) (result : EncodeResult) (next : RunnerPlace) :
    (r.record result next).place = next ∨
      ∃ id, (r.record result next).place = .acknowledging id next := by
  unfold record
  dsimp only
  split
  · next id _ =>
    split
    · exact .inl rfl
    · exact .inr ⟨id, rfl⟩
  · exact .inl rfl

/-- A runner that has to acknowledges the frame that a result completes. -/
theorem place_record_of_completed {result : EncodeResult} {id : UInt32}
    (hid : result.completedFrame = some id) (hack : r.config.workload.ackOff = false)
    (next : RunnerPlace) : (r.record result next).place = .acknowledging id next := by
  simp only [record, hid, hack, Bool.false_eq_true, if_false]

/-- A runner that runs ahead takes steps. -/
theorem reachable_runAhead (steps : Nat) (r : Runner β) :
    Relation.ReflTransGen (Step B) r (r.runAhead B steps) := by
  induction steps generalizing r with
  | zero => exact .refl
  | succ steps ih =>
    rw [runAhead]
    split
    · next t ht => exact .head (.runner ht) (ih t)
    · exact .refl

/-- An encode thread that runs until it rests takes steps. -/
theorem reachable_settle (r : Runner β) (s : System β) :
    Relation.ReflTransGen (Step B) { r with system := s } { r with system := s.settle B } := by
  fun_induction System.settle B s with
  | case1 s _ => exact .refl
  | case2 s t ht ih => exact .head (.worker (r := { r with system := s }) ht) ih

/-- A runner and an encode thread that run in turn take steps. -/
theorem reachable_runTurns (turns : Nat) (r : Runner β) :
    Relation.ReflTransGen (Step B) r (r.runTurns B turns) := by
  induction turns generalizing r with
  | zero => exact .refl
  | succ turns ih =>
    have hahead := reachable_runAhead (B := B) r.stepsAhead r
    rw [runTurns]
    split
    · exact hahead
    · exact hahead.trans ((reachable_settle _ _).trans (ih _))

/-- Running a workload takes steps from its beginning. -/
theorem reachable_run (config : Config) (backend : β) :
    Relation.ReflTransGen (Step B) (new config backend) (run B config backend) :=
  reachable_runTurns _ _

/-- What steps reach is reached by steps and early stops. -/
theorem reachable_of_steps (h : Relation.ReflTransGen (Step B) r t) :
    Relation.ReflTransGen (StoppableStep B) r t := by
  induction h with
  | refl => exact .refl
  | tail _ hstep ih => exact ih.tail (.step hstep)

/-- What is reached by moves along a schedule of the pipeline. -/
inductive Reached (B : Backend β) (early : Prop) (start : Runner β) :
    List Mover → Runner β → Prop
  | start : Reached B early start [] start
  | move {schedule : List Mover} {r t : Runner β} {m : Option Mover}
      (h : Reached B early start schedule r) (hm : r.Moves B early m t) :
      Reached B early start (schedule ++ m.toList) t

variable {start : Runner β} {schedule : List Mover}

/-- What steps reach is reached along a schedule. -/
theorem exists_reached (h : Relation.ReflTransGen (Step B) start r) :
    ∃ schedule, Reached B early start schedule r := by
  induction h with
  | refl => exact ⟨[], .start⟩
  | tail _ hstep ih =>
    obtain ⟨schedule, h⟩ := ih
    obtain ⟨m, hm⟩ := moves_of_step hstep
    exact ⟨_, h.move hm⟩

/-- What steps and early stops reach is reached along a schedule. -/
theorem exists_reached_of_stoppable (h : Relation.ReflTransGen (StoppableStep B) start r) :
    ∃ schedule, Reached B True start schedule r := by
  induction h with
  | refl => exact ⟨[], .start⟩
  | tail _ hstep ih =>
    obtain ⟨schedule, h⟩ := ih
    cases hstep with
    | step hstep =>
      obtain ⟨m, hm⟩ := moves_of_step hstep
      exact ⟨_, h.move hm⟩
    | halt => exact ⟨_, h.move (.halt trivial)⟩

/-- The move of its pipeline that a move of a runner makes is a move of the pipeline. -/
theorem Moves.next_eq {m : Mover} (h : r.Moves B early (some m) t) :
    r.system.next B m = some t.system := by
  cases h with
  | opening hp => rfl
  | call hc hs => exact hs
  | owner hp hs => exact hs
  | receive hp hs =>
    rw [System.next, hs]
    rfl
  | acknowledge hp => rfl
  | worker hs => exact hs

/-- A move of a runner without a move of its pipeline leaves the pipeline alone. -/
theorem Moves.system_eq_of_none (h : r.Moves B early none t) : t.system = r.system := by
  cases h with
  | pass ht => cases ht <;> rfl
  | halt h => rfl

/-- The moves of the pipeline that a move of a runner makes: one or none. -/
def made (r : Runner β) (m : Option Mover) (t : Runner β) : List (Move β) :=
  m.toList.map fun m => ⟨r.system, m, t.system⟩

/-- A move of a runner takes the pipeline along the schedule of the one move it makes, if any. -/
theorem Moves.system_eq {m : Option Mover} (h : r.Moves B early m t) :
    r.system.run B m.toList = t.system ∧ r.system.moves B m.toList = r.made m t := by
  cases m with
  | none => exact ⟨h.system_eq_of_none.symm, rfl⟩
  | some m => simp [System.run, System.moves, made, h.next_eq]

end Runner

end FrameEncoder.Probe
