import FrameEncoder.Pipeline.Schedule
import Mathlib.Logic.Relation

/-!
# Schedules of a pipeline

A schedule says who moves next: the encode thread, the owner, the consumer or a user of the frame
counters. Who cannot move is passed over, so every list of movers is a schedule, and schedules
reach exactly the states that steps reach. What happens along a schedule is kept as the list of
moves that were made.
-/

namespace FrameEncoder

/-- Who moves, and by which call if it is a new one. -/
inductive Mover where
  | worker
  | call (c : Call)
  | owner
  | receive
  | dropReceiver
  | flow (u : FlowUse)
deriving DecidableEq

/-- A move that was made, with the states before and after. -/
structure Move (β : Type) where
  before : System β
  mover : Mover
  after : System β

namespace System

variable {β : Type} (B : Backend β)

/-- The state after a mover's move, if it can make one. -/
def next (s : System β) : Mover → Option (System β)
  | .worker => s.workerStep B
  | .call c => s.callStep c
  | .owner => s.ownerStep B
  | .receive => s.receive.map Prod.snd
  | .dropReceiver => some s.dropReceiver
  | .flow u => some (s.useFlow u)

/-- The steps are the moves. -/
theorem step_iff {s t : System β} : Step B s t ↔ ∃ m, s.next B m = some t := by
  constructor
  · intro h
    cases h with
    | worker h => exact ⟨.worker, h⟩
    | call c h => exact ⟨.call c, h⟩
    | owner h => exact ⟨.owner, h⟩
    | receive h => exact ⟨.receive, by rw [next, h]; rfl⟩
    | dropReceiver => exact ⟨.dropReceiver, rfl⟩
    | flow u => exact ⟨.flow u, rfl⟩
  · rintro ⟨m, h⟩
    cases m with
    | worker => exact .worker h
    | call c => exact .call c h
    | owner => exact .owner h
    | receive =>
      obtain ⟨⟨r, u⟩, hr, rfl⟩ := Option.map_eq_some_iff.mp h
      exact .receive hr
    | dropReceiver =>
      cases h
      exact .dropReceiver
    | flow u =>
      cases h
      exact .flow u

/-- The state a schedule leads to. -/
def run (s : System β) : List Mover → System β
  | [] => s
  | m :: ms =>
    match s.next B m with
    | some t => run t ms
    | none => run s ms

/-- The moves made along a schedule. -/
def moves (s : System β) : List Mover → List (Move β)
  | [] => []
  | m :: ms =>
    match s.next B m with
    | some t => ⟨s, m, t⟩ :: moves t ms
    | none => moves s ms

variable {B}

/-- What holds at the start and is kept by every move, given the moves made before, holds at the
end of every schedule. -/
theorem run_induction {s : System β} {P : List (Move β) → System β → Prop} (hstart : P [] s)
    (hmove : ∀ history s m t, P history s → s.next B m = some t →
      P (history ++ [⟨s, m, t⟩]) t) (schedule : List Mover) :
    P (s.moves B schedule) (s.run B schedule) := by
  have hgeneral : ∀ (schedule : List Mover) (history : List (Move β)) (s : System β),
      P history s → P (history ++ s.moves B schedule) (s.run B schedule) := by
    intro schedule
    induction schedule with
    | nil =>
      intro history s h
      rw [moves, List.append_nil]
      exact h
    | cons m ms ih =>
      intro history s h
      rw [moves, run]
      cases hnext : s.next B m with
      | none => exact ih history s h
      | some t =>
        have hrest := ih (history ++ [⟨s, m, t⟩]) t (hmove history s m t h hnext)
        rw [List.append_assoc] at hrest
        exact hrest
  exact hgeneral schedule [] s hstart

/-- A schedule leads on from where the schedule before it led. -/
theorem run_append (s : System β) (before later : List Mover) :
    s.run B (before ++ later) = (s.run B before).run B later := by
  induction before generalizing s with
  | nil => rfl
  | cons m ms ih =>
    rw [List.cons_append, run, run]
    split
    · exact ih _
    · exact ih s

/-- The moves of one schedule come before those of the schedule after it. -/
theorem moves_append (s : System β) (before later : List Mover) :
    s.moves B (before ++ later) = s.moves B before ++ (s.run B before).moves B later := by
  induction before generalizing s with
  | nil => rfl
  | cons m ms ih =>
    rw [List.cons_append, moves, moves, run]
    split
    · rw [ih, List.cons_append]
    · exact ih s

/-- What holds at the start and is kept by every move, given what is known of every schedule, holds
at the end of every schedule. -/
theorem run_induction_of {s : System β} {I P : List (Move β) → System β → Prop}
    (hknown : ∀ schedule, I (s.moves B schedule) (s.run B schedule)) (hstart : P [] s)
    (hmove : ∀ history t m u, I history t → P history t → t.next B m = some u →
      P (history ++ [⟨t, m, u⟩]) u) (schedule : List Mover) :
    P (s.moves B schedule) (s.run B schedule) := by
  refine (run_induction
    (P := fun history t => (∃ before, s.moves B before = history ∧ s.run B before = t) ∧
      P history t) ⟨⟨[], rfl, rfl⟩, hstart⟩ ?_ schedule).2
  rintro history t m u ⟨⟨before, rfl, rfl⟩, h⟩ hnext
  refine ⟨⟨before ++ [m], ?_, ?_⟩, hmove _ _ m u (hknown before) h hnext⟩
  · simp only [moves_append, moves, hnext]
  · simp only [run_append, run, hnext]

/-- Schedules reach exactly the states that steps reach. -/
theorem exists_run_iff {s t : System β} :
    (∃ schedule, s.run B schedule = t) ↔ Relation.ReflTransGen (Step B) s t := by
  constructor
  · rintro ⟨schedule, rfl⟩
    refine run_induction (P := fun _ t => Relation.ReflTransGen (Step B) s t) .refl ?_ schedule
    intro _ t m u ht hnext
    exact ht.tail ((step_iff B).mpr ⟨m, hnext⟩)
  · intro h
    induction h using Relation.ReflTransGen.head_induction_on with
    | refl => exact ⟨[], rfl⟩
    | head hstep _ ih =>
      obtain ⟨m, hnext⟩ := (step_iff B).mp hstep
      obtain ⟨schedule, hrun⟩ := ih
      exact ⟨m :: schedule, by rw [run, hnext]; exact hrun⟩

variable (B)

/-- Every way a system can move on. -/
inductive Moves (s : System β) : Mover → System β → Prop
  /-- The encode thread sees the stop flag before it waits. -/
  | stopLooping (hw : s.worker = .looping) (hs : s.stop = true) :
      Moves s .worker (s.endWorker B false)
  | wait (hw : s.worker = .looping) (hs : s.stop = false) :
      Moves s .worker { s with worker := .receiving }
  | take {m : Message} {rest : List Message} (hw : s.worker = .receiving)
      (hi : s.inbound = m :: rest) :
      Moves s .worker { s with inbound := rest, worker := .rechecking m }
  /-- The encode thread sees the stop flag with a message in hand. -/
  | stopRechecking {m : Message} (hw : s.worker = .rechecking m) (hs : s.stop = true) :
      Moves s .worker (s.endWorker B false)
  | begin {seq : Nat} {c : Command} (hw : s.worker = .rechecking (.command seq c))
      (hs : s.stop = false) : Moves s .worker { s with worker := .counting seq c }
  | woken (hw : s.worker = .rechecking .wake) (hs : s.stop = false) :
      Moves s .worker { s with worker := .looping }
  | count {seq : Nat} {c : Command} (hw : s.worker = .counting seq c) :
      Moves s .worker
        { s with stats.commands := s.stats.commands + 1, worker := .encoding seq c }
  | process {seq : Nat} {c : Command} {effects : List Effect} (hw : s.worker = .encoding seq c)
      (hp : (processCommand B s.config s.backend s.dest seq c).effects = some effects) :
      Moves s .worker
        { s with
          dest := (processCommand B s.config s.backend s.dest seq c).dest
          backend := (processCommand B s.config s.backend s.dest seq c).backend
          worker := .publishing effects }
  | crash {seq : Nat} {c : Command} (hw : s.worker = .encoding seq c)
      (hp : (processCommand B s.config s.backend s.dest seq c).effects = none) :
      Moves s .worker
        (endWorker B
          { s with
            dest := (processCommand B s.config s.backend s.dest seq c).dest
            backend := (processCommand B s.config s.backend s.dest seq c).backend } true)
  | finish (hw : s.worker = .publishing []) : Moves s .worker { s with worker := .looping }
  | effect {e : Effect} {effects : List Effect} (hw : s.worker = .publishing (e :: effects)) :
      Moves s .worker { s.applyEffect e with worker := .publishing effects }
  | start {a : Option Answer} {refusal : Option String} (ho : s.owner = .ready a)
      (hw : s.worker = .held) :
      Moves s (.call (.start refusal)) { s with phase := .running, owner := .spawning refusal }
  | startTerminated {a : Option Answer} {refusal : Option String} (ho : s.owner = .ready a)
      (hw : s.worker ≠ .held) (hp : s.phase = .terminated) :
      Moves s (.call (.start refusal)) (s.answer (.refused .shutDown))
  | startAgain {a : Option Answer} {refusal : Option String} (ho : s.owner = .ready a)
      (hw : s.worker ≠ .held) (hp : s.phase ≠ .terminated) :
      Moves s (.call (.start refusal)) (s.answer (.refused .alreadyStarted))
  | submitStopped {a : Option Answer} {c : Command} (ho : s.owner = .ready a)
      (hs : s.stop = true) : Moves s (.call (.submit c)) (s.answer (.refused .shutDown))
  | submit {a : Option Answer} {c : Command} (ho : s.owner = .ready a) (hs : s.stop = false) :
      Moves s (.call (.submit c)) { s with owner := .numbering c }
  | shutdown {a : Option Answer} (ho : s.owner = .ready a) :
      Moves s (.call .shutdown) { s with stop := true, owner := .releasing }
  | spawn (ho : s.owner = .spawning none) :
      Moves s .owner
        ({ s with
          worker := .looping
          thread := true
          dest := Bytes.zeros s.config.maxCompressedBytes }.answer .started)
  | spawnRefused {reason : String} (ho : s.owner = .spawning (some reason)) :
      Moves s .owner
        ({ s.endWorker B false with phase := .terminated }.answer (.refused (.spawn reason)))
  | number {c : Command} (ho : s.owner = .numbering c) :
      Moves s .owner { s with nextSeq := s.nextSeq + 1, owner := .marking s.nextSeq c }
  | mark {seq : Nat} {c : Command} (ho : s.owner = .marking seq c) :
      Moves s .owner
        { s with
          flow := match c.frameId with
            | some id => s.flow.frameGenerated id
            | none => s.flow
          owner := .queueing seq c }
  | queueGone {seq : Nat} {c : Command} (ho : s.owner = .queueing seq c)
      (hw : s.worker.isGone = true) : Moves s .owner (s.answer (.refused .shutDown))
  | queue {seq : Nat} {c : Command} (ho : s.owner = .queueing seq c)
      (hw : s.worker.isGone = false) :
      Moves s .owner
        ({ s with inbound := s.inbound ++ [Message.command seq c] }.answer (.submitted seq))
  /-- There is a thread to wait for. -/
  | release (ho : s.owner = .releasing) (ht : s.thread = true) :
      Moves s .owner { s.dropHeld B with phase := .draining, owner := .waking }
  | releaseIdle (ho : s.owner = .releasing) (ht : s.thread = false) :
      Moves s .owner ({ s.dropHeld B with phase := .terminated }.answer .stopped)
  | wake (ho : s.owner = .waking) :
      Moves s .owner
        { s with
          inbound := if s.worker.isGone then s.inbound else s.inbound ++ [Message.wake]
          owner := .joining }
  | join {crashed : Bool} (ho : s.owner = .joining) (hw : s.worker = .gone crashed) :
      Moves s .owner
        ({ s with thread := false, phase := .terminated }.answer
          (if crashed then .refused .threadCrashed else .stopped))
  | receive {r : EncodeResult} {rest : List EncodeResult} (hr : s.outbound = r :: rest) :
      Moves s .receive { s with outbound := rest }
  | dropReceiver : Moves s .dropReceiver s.dropReceiver
  | flow (u : FlowUse) : Moves s (.flow u) (s.useFlow u)

variable {B}

/-- Letting go of an encode thread that was never started touches only what is the thread's. -/
theorem dropHeld_eq (s : System β) :
    s.dropHeld B = { s with
      worker := (s.dropHeld B).worker
      inbound := (s.dropHeld B).inbound
      backend := (s.dropHeld B).backend } := by
  unfold dropHeld
  split <;> rfl

@[simp] theorem thread_dropHeld (s : System β) : (s.dropHeld B).thread = s.thread := by
  rw [dropHeld_eq]

@[simp] theorem stop_dropHeld (s : System β) : (s.dropHeld B).stop = s.stop := by
  rw [dropHeld_eq]

@[simp] theorem stats_dropHeld (s : System β) : (s.dropHeld B).stats = s.stats := by
  rw [dropHeld_eq]

@[simp] theorem flow_dropHeld (s : System β) : (s.dropHeld B).flow = s.flow := by
  rw [dropHeld_eq]

@[simp] theorem config_dropHeld (s : System β) : (s.dropHeld B).config = s.config := by
  rw [dropHeld_eq]

/-- The moves of the encode thread. -/
theorem moves_of_workerStep {s t : System β} (h : s.workerStep B = some t) :
    Moves B s .worker t := by
  unfold workerStep at h
  split at h
  · cases h
  · cases h
  · next hw =>
    cases h
    split
    · next hs => exact .stopLooping hw hs
    · next hs => exact .wait hw (Bool.not_eq_true _ ▸ hs)
  · next hw =>
    split at h
    · cases h
    · next hi =>
      cases h
      exact .take hw hi
  · next m hw =>
    cases h
    split
    · next hs => exact .stopRechecking hw hs
    · next hs =>
      rw [Bool.not_eq_true] at hs
      split
      · exact .begin hw hs
      · exact .woken hw hs
  · next hw =>
    cases h
    exact .count hw
  · next hw =>
    cases h
    simp only
    split
    · next hp => exact .process hw hp
    · next hp => exact .crash hw hp
  · next hw =>
    cases h
    exact .finish hw
  · next hw =>
    cases h
    exact .effect hw

/-- The first moves of calls. -/
theorem moves_of_callStep {s t : System β} {c : Call} (h : s.callStep c = some t) :
    Moves B s (.call c) t := by
  unfold callStep at h
  split at h
  · next ho =>
    cases h
    split
    · split
      · next hw => exact .start ho hw
      · next hw =>
        split
        · next hp => exact .startTerminated ho hw hp
        · next hp => exact .startAgain ho hw hp
    · split
      · next hs => exact .submitStopped ho hs
      · next hs => exact .submit ho (Bool.not_eq_true _ ▸ hs)
    · exact .shutdown ho
  · cases h

/-- The further moves of calls. -/
theorem moves_of_ownerStep {s t : System β} (h : s.ownerStep B = some t) :
    Moves B s .owner t := by
  unfold ownerStep at h
  split at h
  · cases h
  · next ho =>
    cases h
    exact .spawn ho
  · next ho =>
    cases h
    exact .spawnRefused ho
  · next ho =>
    cases h
    exact .number ho
  · next ho =>
    cases h
    exact .mark ho
  · next ho =>
    cases h
    split
    · next hw => exact .queueGone ho hw
    · next hw => exact .queue ho (Bool.not_eq_true _ ▸ hw)
  · next ho =>
    cases h
    split
    · next ht => exact .release ho ((thread_dropHeld s).symm.trans ht)
    · next ht =>
      rw [Bool.not_eq_true] at ht
      exact .releaseIdle ho ((thread_dropHeld s).symm.trans ht)
  · next ho =>
    cases h
    exact .wake ho
  · next ho =>
    split at h
    · next hw =>
      cases h
      exact .join ho hw
    · cases h

/-- Every move is one of these. -/
theorem moves_of_next {s t : System β} {m : Mover} (h : s.next B m = some t) : Moves B s m t := by
  cases m with
  | worker => exact moves_of_workerStep h
  | call c => exact moves_of_callStep h
  | owner => exact moves_of_ownerStep h
  | receive =>
    obtain ⟨⟨r, u⟩, hr, rfl⟩ := Option.map_eq_some_iff.mp h
    unfold System.receive at hr
    split at hr
    · cases hr
    · next ho =>
      cases hr
      exact .receive ho
  | dropReceiver =>
    cases h
    exact .dropReceiver
  | flow u =>
    cases h
    exact .flow u

/-- The owner is where it was after a move of the encode thread. -/
theorem owner_eq_of_worker {s t : System β} (hmove : Moves B s .worker t) : t.owner = s.owner := by
  cases hmove with
  | @effect e effects hw => cases e <;> rfl
  | _ => rfl

/-- A thread that was not started does not move. -/
theorem worker_ne_held {s t : System β} (hmove : Moves B s .worker t) : s.worker ≠ .held := by
  intro hheld
  cases hmove <;> simp_all only [reduceCtorEq]

/-- Only the encode thread and the owner touch the messages to the encode thread. -/
theorem worker_eq_of_ne {s t : System β} {m : Mover} (hmove : Moves B s m t)
    (hworker : m ≠ .worker) (howner : m ≠ .owner) :
    t.worker = s.worker ∧ t.inbound = s.inbound := by
  cases hmove <;> first
    | exact ⟨rfl, rfl⟩
    | exact absurd rfl hworker
    | exact absurd rfl howner

/-- Whoever made a move was due on the schedule. -/
theorem mover_mem {s : System β} {schedule : List Mover} {x : Move β}
    (hx : x ∈ s.moves B schedule) : x.mover ∈ schedule := by
  induction schedule generalizing s with
  | nil => exact absurd hx List.not_mem_nil
  | cons m ms ih =>
    rw [moves] at hx
    split at hx
    · rcases List.mem_cons.mp hx with rfl | hx
      · exact List.mem_cons_self
      · exact List.mem_cons_of_mem _ (ih hx)
    · exact List.mem_cons_of_mem _ (ih hx)

/-- What encode calls and releases keep of a backend's state, dealing with a command keeps. -/
theorem backend_processCommand {I : β → Prop}
    (hencode : ∀ backend r dest, I backend → I (B.encode backend r dest).2.2) {backend : β}
    (h : I backend) (config : PipelineConfig) (dest : ByteArray) (seq : Nat) (c : Command) :
    I (processCommand B config backend dest seq c).backend := by
  unfold processCommand
  simp only
  split
  · exact h
  · split
    · exact h
    · exact hencode _ _ _ h

/-- What encode calls and releases keep of a backend's state, every move keeps. -/
theorem backend_move {I : β → Prop}
    (hencode : ∀ backend r dest, I backend → I (B.encode backend r dest).2.2)
    (hrelease : ∀ backend, I backend → I (B.release backend)) {s t : System β} {m : Mover}
    (h : I s.backend) (hmove : Moves B s m t) : I t.backend := by
  have hdrop : I (s.dropHeld B).backend := by
    unfold dropHeld
    split
    · exact hrelease _ h
    · exact h
  cases hmove with
  | stopLooping _ _ => exact hrelease _ h
  | stopRechecking _ _ => exact hrelease _ h
  | spawnRefused _ => exact hrelease _ h
  | process _ _ => exact backend_processCommand hencode h ..
  | crash _ _ => exact hrelease _ (backend_processCommand hencode h ..)
  | @effect e effects _ => cases e <;> exact h
  | release _ _ => exact hdrop
  | releaseIdle _ _ => exact hdrop
  | _ => exact h

end System

end FrameEncoder
