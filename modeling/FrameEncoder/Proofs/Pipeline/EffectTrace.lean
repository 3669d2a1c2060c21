import FrameEncoder.Proofs.Pipeline.ResultStream
import Mathlib.Algebra.GroupWithZero.Nat

/-!
# The trace of effects

What the encode thread lets be seen are the effects of the commands it has dealt with, one command
after the other and in their order. So along every schedule the effects seen so far, followed by
those that are pending, are exactly the effects of those commands. The totals and the published
results are read off the effects seen.
-/

namespace FrameEncoder

/-- The effects still to be seen. -/
def Worker.effects : Worker → List Effect
  | .publishing effects => effects
  | _ => []

/-- The frame an effect marks as sent, if it does. -/
def Effect.marked? : Effect → Option UInt32
  | .markSent id => some id
  | _ => none

/-- The payload of the result an effect counts, if it does. -/
def Effect.payload? : Effect → Option Nat
  | .countResult payload => some payload
  | _ => none

/-- A command that was dealt with: the backend before and afterwards, and the effects. -/
structure Dealt (β : Type) where
  seq : Nat
  command : Command
  before : β
  after : β
  effects : List Effect

namespace Dealt

variable {β : Type}

/-- Whether a command was dealt with by a backend under some settings. -/
def IsBy (B : Backend β) (config : PipelineConfig) (d : Dealt β) : Prop :=
  ∃ dest, (processCommand B config d.before dest d.seq d.command).effects = some d.effects ∧
    (processCommand B config d.before dest d.seq d.command).backend = d.after

/-- The results of the command. -/
def results (d : Dealt β) : List EncodeResult := sentBy d.effects

end Dealt

namespace Move

variable {β : Type}

/-- The effect a move let be seen. -/
def seen (x : Move β) : List Effect :=
  match x.mover, x.before.worker with
  | .worker, .publishing (e :: _) => [e]
  | _, _ => []

/-- The command a move counted. -/
def counted (x : Move β) : List (Nat × Command) :=
  match x.mover, x.before.worker with
  | .worker, .counting seq c => [(seq, c)]
  | _, _ => []

/-- The command a move dealt with. -/
def dealt (x : Move β) : List (Dealt β) :=
  match x.mover, x.before.worker, x.after.worker with
  | .worker, .encoding seq command, .publishing effects =>
    [⟨seq, command, x.before.backend, x.after.backend, effects⟩]
  | _, _, _ => []

/-- A move publishes the results among the effects it lets be seen. -/
theorem published_eq (x : Move β) : x.published = sentBy x.seen := by
  unfold published seen
  cases x.mover with
  | worker =>
    cases x.before.worker with
    | publishing effects =>
      cases effects with
      | nil => rfl
      | cons e _ => cases e <;> rfl
    | _ => rfl
  | _ => rfl

end Move

/-- What was published is what was sent among the effects seen. -/
theorem published_flatMap {β : Type} (history : List (Move β)) :
    history.flatMap Move.published = sentBy (history.flatMap Move.seen) := by
  induction history with
  | nil => rfl
  | cons x history ih =>
    rw [List.flatMap_cons, List.flatMap_cons, ih, Move.published_eq, sentBy, sentBy,
      ← List.filterMap_append]
    rfl

/-- How totals grow with the commands counted and the effects seen. -/
structure Stats.Grows (before after : Stats) (counted : List (Nat × Command))
    (seen : List Effect) : Prop where
  commands_eq : after.commands = before.commands + counted.length
  results_eq : after.results = before.results + (seen.filterMap Effect.payload?).length
  bytes_eq : after.bytes = before.bytes + (seen.filterMap Effect.payload?).sum
  skipped_eq : after.skipped = before.skipped + seen.count .countSkipped
  failed_eq : after.failed = before.failed + seen.count .countFailed
  reinits_eq : after.reinits = before.reinits + seen.count .countReinit

/-- Totals grow by nothing when nothing is counted or seen. -/
theorem Stats.Grows.refl (st : Stats) : st.Grows st [] [] := ⟨rfl, rfl, rfl, rfl, rfl, rfl⟩

/-- Totals grow by one history after the other. -/
theorem Stats.Grows.trans {st su sv : Stats} {counted counted' : List (Nat × Command)}
    {seen seen' : List Effect} (h : st.Grows su counted seen) (h' : su.Grows sv counted' seen') :
    st.Grows sv (counted ++ counted') (seen ++ seen') where
  commands_eq := by rw [h'.commands_eq, h.commands_eq, List.length_append, Nat.add_assoc]
  results_eq := by
    rw [h'.results_eq, h.results_eq, List.filterMap_append, List.length_append, Nat.add_assoc]
  bytes_eq := by
    rw [h'.bytes_eq, h.bytes_eq, List.filterMap_append, List.sum_append, Nat.add_assoc]
  skipped_eq := by rw [h'.skipped_eq, h.skipped_eq, List.count_append, Nat.add_assoc]
  failed_eq := by rw [h'.failed_eq, h.failed_eq, List.count_append, Nat.add_assoc]
  reinits_eq := by rw [h'.reinits_eq, h.reinits_eq, List.count_append, Nat.add_assoc]

namespace System

variable {β : Type} {B : Backend β} {s t : System β}

/-- An effect counts itself. -/
theorem grows_applyEffect (s : System β) (e : Effect) :
    s.stats.Grows (s.applyEffect e).stats [] [e] := by
  cases e <;> exact ⟨rfl, rfl, rfl, rfl, rfl, rfl⟩

/-- The settings of a pipeline never change. -/
theorem config_move {m : Mover} (hmove : Moves B s m t) : t.config = s.config := by
  cases hmove with
  | @effect e effects hw => cases e <;> rfl
  | release ho ht => exact config_dropHeld s
  | releaseIdle ho ht => exact config_dropHeld s
  | _ => rfl

/-- Every move lets the totals grow by what it counts. -/
theorem grows_move {m : Mover} (hmove : Moves B s m t) :
    s.stats.Grows t.stats (Move.counted ⟨s, m, t⟩) (Move.seen ⟨s, m, t⟩) := by
  cases hmove with
  | @effect e effects hw =>
    simp only [Move.counted, Move.seen, hw]
    exact s.grows_applyEffect e
  | count hw =>
    simp only [Move.counted, Move.seen, hw]
    exact ⟨rfl, rfl, rfl, rfl, rfl, rfl⟩
  | release ho ht =>
    show s.stats.Grows (s.dropHeld B).stats [] []
    rw [stats_dropHeld]
    exact .refl _
  | releaseIdle ho ht =>
    show s.stats.Grows (s.dropHeld B).stats [] []
    rw [stats_dropHeld]
    exact .refl _
  | _ =>
    simp only [Move.counted, Move.seen, *]
    exact .refl _

/-- A command that a move deals with is dealt with by the backend. -/
theorem isBy_of_move {m : Mover} (hmove : Moves B s m t) :
    ∀ d ∈ Move.dealt ⟨s, m, t⟩, d.IsBy B s.config ∧ d.before = s.backend ∧ d.after = t.backend := by
  intro d hd
  cases hmove with
  | @process seq c effects hw hp =>
    simp only [Move.dealt, hw, List.mem_singleton] at hd
    subst hd
    exact ⟨⟨s.dest, hp, rfl⟩, rfl, rfl⟩
  | _ => simp_all [Move.dealt, endWorker]

/-- A move of the encode thread lets the first pending effect be seen, or deals with a command
when nothing is pending. -/
theorem effects_worker (hmove : Moves B s .worker t) :
    s.worker.effects ++ (Move.dealt ⟨s, .worker, t⟩).flatMap Dealt.effects =
      Move.seen ⟨s, .worker, t⟩ ++ t.worker.effects := by
  cases hmove with
  | process hw hp => simp [Move.dealt, Move.seen, Worker.effects, hw]
  | effect hw => simp [Move.dealt, Move.seen, Worker.effects, hw]
  | finish hw => simp [Move.dealt, Move.seen, Worker.effects, hw]
  | crash hw hp => simp [Move.dealt, Move.seen, Worker.effects, endWorker, hw]
  | stopLooping hw hs => simp [Move.dealt, Move.seen, Worker.effects, endWorker, hw]
  | stopRechecking hw hs => simp [Move.dealt, Move.seen, Worker.effects, endWorker, hw]
  | wait hw hs => simp [Move.dealt, Move.seen, Worker.effects, hw]
  | take hw hi => simp [Move.dealt, Move.seen, Worker.effects, hw]
  | begin hw hs => simp [Move.dealt, Move.seen, Worker.effects, hw]
  | woken hw hs => simp [Move.dealt, Move.seen, Worker.effects, hw]
  | count hw => simp [Move.dealt, Move.seen, Worker.effects, hw]

/-- Other movers leave the encode thread where it is, but for starting it or letting go of it. -/
theorem worker_of_ne (hheld : s.StartsHeld) {m : Mover} (hmove : Moves B s m t)
    (hworker : m ≠ .worker) :
    t.worker = s.worker ∨ s.worker = .held ∧ (t.worker = .looping ∨ t.worker = .gone false) := by
  have hdrop : (s.dropHeld B).worker = s.worker ∨ s.worker = .held ∧
      ((s.dropHeld B).worker = .looping ∨ (s.dropHeld B).worker = .gone false) := by
    unfold dropHeld
    split
    · next hw => exact .inr ⟨hw, .inr rfl⟩
    · exact .inl rfl
  by_cases howner : m = .owner
  · subst howner
    cases hmove with
    | spawn ho => exact .inr ⟨hheld _ ho, .inl rfl⟩
    | spawnRefused ho => exact .inr ⟨hheld _ ho, .inr rfl⟩
    | release ho ht => exact hdrop
    | releaseIdle ho ht => exact hdrop
    | _ => exact .inl rfl
  · exact .inl (worker_eq_of_ne hmove hworker howner).1

/-- What is the same for a thread that starts, a thread that was let go of and a held one is changed
by no other mover than the encode thread. -/
theorem eq_of_ne {α : Type} (f : Worker → α) (hlooping : f .looping = f .held)
    (hgone : f (.gone false) = f .held) (hheld : s.StartsHeld) {m : Mover}
    (hmove : Moves B s m t) (hworker : m ≠ .worker) : f t.worker = f s.worker := by
  rcases worker_of_ne hheld hmove hworker with hw | ⟨hs, hw | hw⟩
  · rw [hw]
  · rw [hs, hw, hlooping]
  · rw [hs, hw, hgone]

end System

/-- What a history of moves from one state to another says about the commands dealt with and the
effects seen. -/
structure Traced {β : Type} (B : Backend β) (s t : System β) (history : List (Move β)) : Prop where
  config_eq : t.config = s.config
  startsHeld : t.StartsHeld
  /-- What was pending and what the commands gave was seen, or is pending now. -/
  effects_eq : s.worker.effects ++ (history.flatMap Move.dealt).flatMap Dealt.effects =
    history.flatMap Move.seen ++ t.worker.effects
  isBy : ∀ d ∈ history.flatMap Move.dealt, d.IsBy B s.config
  grows : s.stats.Grows t.stats (history.flatMap Move.counted) (history.flatMap Move.seen)

/-- Every schedule is traced. -/
theorem traced_run {β : Type} {B : Backend β} {s : System β} (hheld : s.StartsHeld)
    (schedule : List Mover) : Traced B s (s.run B schedule) (s.moves B schedule) := by
  refine System.run_induction (P := fun history t => Traced B s t history)
    ⟨rfl, hheld, List.append_nil _, fun _ hd => absurd hd List.not_mem_nil, .refl _⟩ ?_ schedule
  intro history t m u h hnext
  have hmove := System.moves_of_next hnext
  have hgrows := h.grows.trans (System.grows_move hmove)
  refine ⟨(System.config_move hmove).trans h.config_eq, startsHeld_move h.startsHeld hmove, ?_, ?_,
    ?_⟩ <;> simp only [List.flatMap_append, List.flatMap_singleton]
  · have hstep : t.worker.effects ++ (Move.dealt ⟨t, m, u⟩).flatMap Dealt.effects =
        Move.seen ⟨t, m, u⟩ ++ u.worker.effects := by
      by_cases hm : m = .worker
      · subst hm
        exact System.effects_worker hmove
      · rw [System.eq_of_ne Worker.effects rfl rfl h.startsHeld hmove hm]
        cases m <;> first
          | exact absurd rfl hm
          | simp [Move.dealt, Move.seen]
    rw [← List.append_assoc, h.effects_eq, List.append_assoc, hstep, List.append_assoc]
  · intro d hd
    rcases List.mem_append.mp hd with hd | hd
    · exact h.isBy d hd
    · rw [← h.config_eq]
      exact (System.isBy_of_move hmove d hd).1
  · exact hgrows

/-- A reply is counted first, and then its results are published. -/
theorem exists_published_effectsOfReply {config : PipelineConfig} {e : Envelope} {dest : ByteArray}
    {reply : EncodeReply} {effects : List Effect}
    (h : effectsOfReply config e dest reply = some effects) :
    ∃ counts, ∃ results : List EncodeResult, effects = counts ++ results.flatMap publish ∧
      counts ⊆ [.countReinit, .countSkipped, .countFailed] := by
  unfold effectsOfReply at h
  split at h
  · next outcome =>
    obtain rfl := Option.some.inj h
    refine ⟨_, _, rfl, ?_⟩
    split <;> simp
  · obtain rfl := Option.some.inj h
    exact ⟨[.countSkipped], [_], by rw [List.flatMap_singleton]; rfl, by simp⟩
  · obtain rfl := Option.some.inj h
    exact ⟨[.countFailed], [_], by rw [List.flatMap_singleton]; rfl, by simp⟩
  · cases h

/-- Dealing with a command refuses it without a call of the backend if it describes no update, and
else calls the backend once and goes by its reply. -/
theorem processCommand_cases {β : Type} {B : Backend β} {config : PipelineConfig} {backend : β}
    {dest : ByteArray} {seq : Nat} {c : Command} {effects : List Effect}
    (h : (processCommand B config backend dest seq c).effects = some effects) :
    (∃ error, c.resolve = .error error ∧ effects = publish
        (emptyResult config (.ofCommand seq c) (.failed (.invalidInput (.command error)))) ∧
      (processCommand B config backend dest seq c).backend = backend) ∨
    ∃ u e r, c.resolve = .ok u ∧
      effectsOfReply config e (B.encode backend r dest).2.1 (B.encode backend r dest).1 =
        some effects ∧
      (processCommand B config backend dest seq c).backend = (B.encode backend r dest).2.2 := by
  unfold processCommand at h ⊢
  simp only at h ⊢
  split at h
  · next error herror => exact .inl ⟨error, herror, (Option.some.inj h).symm, rfl⟩
  · next u hu =>
    split at h
    · cases h
    · exact .inr ⟨u, _, _, hu, h, rfl⟩

/-- Dealing with a command counts what became of it first, and then publishes its results. -/
theorem exists_published {β : Type} {B : Backend β} {config : PipelineConfig} {backend : β}
    {dest : ByteArray} {seq : Nat} {c : Command} {effects : List Effect}
    (h : (processCommand B config backend dest seq c).effects = some effects) :
    ∃ counts, ∃ results : List EncodeResult, effects = counts ++ results.flatMap publish ∧
      counts ⊆ [.countReinit, .countSkipped, .countFailed] := by
  rcases processCommand_cases h with ⟨error, -, rfl, -⟩ | ⟨u, e, r, -, heffects, -⟩
  · exact ⟨[], [_], by rw [List.flatMap_singleton]; rfl, by simp⟩
  · exact exists_published_effectsOfReply heffects

/-- Publishing a result counts nothing but the result. -/
theorem count_publish {e : Effect} (h : e ∈ [.countReinit, .countSkipped, .countFailed])
    (r : EncodeResult) : (publish r).count e = 0 := by
  rw [List.count_eq_zero]
  intro hr
  unfold publish at hr
  simp only [List.mem_cons, List.not_mem_nil, or_false] at h
  obtain rfl | rfl | rfl := h <;> cases hc : r.completedFrame <;> simp [hc] at hr

/-- Publishing results counts nothing but results. -/
theorem count_flatMap_publish {e : Effect} (h : e ∈ [.countReinit, .countSkipped, .countFailed])
    (results : List EncodeResult) : (results.flatMap publish).count e = 0 := by
  induction results with
  | nil => rfl
  | cons r results ih => rw [List.flatMap_cons, List.count_append, count_publish h, ih]

/-- The results of a command that was dealt with are its group. -/
theorem Dealt.IsBy.isGroup {β : Type} {B : Backend β} {config : PipelineConfig} {d : Dealt β}
    (h : d.IsBy B config) : IsGroup d.seq d.command d.results := by
  obtain ⟨dest, heffects, -⟩ := h
  exact isGroup_processCommand heffects

/-- The results of commands that were dealt with are what their effects send. -/
theorem sentBy_flatMap {β : Type} (ds : List (Dealt β)) :
    sentBy (ds.flatMap Dealt.effects) = (ds.map Dealt.results).flatten := by
  rw [sentBy, List.filterMap_flatMap, ← List.flatMap_def]
  rfl

end FrameEncoder
