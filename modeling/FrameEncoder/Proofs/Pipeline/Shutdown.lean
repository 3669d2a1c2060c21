import FrameEncoder.Backend.Scripted
import FrameEncoder.Proofs.Pipeline.Dispatch
import FrameEncoder.Proofs.Pipeline.MarkOrder

/-!
# Shutting a pipeline down

From the moment the stop flag is set no command is begun. The one that was begun before is dealt
with to its last result, the others are dropped, and after a number of moves that is known when the
flag is set the encode thread is gone and the shutdown returns. What the consumer has not received
by then stays for it to receive, and nothing is added to it.
-/

namespace FrameEncoder

/-- Whether a mover is the encode thread, or the owner within a call. -/
def Mover.isBusy : Mover → Bool
  | .worker | .owner => true
  | _ => false

namespace System

variable {β : Type} (B : Backend β)

/-- The moves from dealing with a command until the encode thread is gone, once the stop flag is
set. -/
def dealingLeft (s : System β) (seq : Nat) (c : Command) : Nat :=
  match (processCommand B s.config s.backend s.dest seq c).effects with
  | some effects => effects.length + 3
  | none => 1

/-- The moves of the encode thread until it is gone, once the stop flag is set. -/
def workLeft (s : System β) : Nat :=
  match s.worker with
  | .held | .gone _ => 0
  | .looping | .rechecking _ => 1
  | .receiving => 2
  | .publishing effects => effects.length + 2
  | .encoding seq c => s.dealingLeft B seq c
  | .counting seq c => s.dealingLeft B seq c + 1

/-- The moves of a shutdown until it returns. -/
def callLeft (s : System β) : Nat :=
  match s.owner with
  | .releasing => 3
  | .waking => 2
  | .joining => 1
  | _ => 0

variable {B} {s t : System β}

/-- Once the stop flag is set every move of the encode thread brings it closer to its end. -/
theorem workLeft_worker (hmove : Moves B s .worker t) (hstop : s.stop = true) :
    t.workLeft B < s.workLeft B := by
  cases hmove with
  | stopLooping hw hs => simp [workLeft, endWorker, hw]
  | wait hw hs => exact absurd (hs.symm.trans hstop) Bool.false_ne_true
  | take hw hi => simp [workLeft, hw]
  | stopRechecking hw hs => simp [workLeft, endWorker, hw]
  | begin hw hs => exact absurd (hs.symm.trans hstop) Bool.false_ne_true
  | woken hw hs => exact absurd (hs.symm.trans hstop) Bool.false_ne_true
  | count hw => simp [workLeft, dealingLeft, hw]
  | process hw hp => simp [workLeft, dealingLeft, hw, hp]
  | crash hw hp => simp [workLeft, dealingLeft, endWorker, hw, hp]
  | finish hw => simp [workLeft, hw]
  | effect hw => simp [workLeft, hw]

/-- Letting go of a thread that never ran leaves it nothing to do. -/
theorem workLeft_dropHeld : (s.dropHeld B).workLeft B = s.workLeft B := by
  unfold dropHeld
  split
  · next hw => simp [workLeft, endWorker, hw]
  · rfl

/-- Once the stop flag is set every further move of the owner brings its shutdown closer to its
end. -/
theorem callLeft_owner (h : s.IsLawful) (hmove : Moves B s .owner t) (hstop : s.stop = true) :
    t.callLeft < s.callLeft ∧ t.workLeft B = s.workLeft B := by
  have howner := h.owner_of_stop hstop
  cases hmove with
  | release ho ht => exact ⟨by simp [callLeft, ho], workLeft_dropHeld⟩
  | releaseIdle ho ht => exact ⟨by simp [callLeft, answer, ho], workLeft_dropHeld⟩
  | wake ho => exact ⟨by simp [callLeft, ho], rfl⟩
  | join ho hw => exact ⟨by simp [callLeft, answer, ho], rfl⟩
  | _ => simp_all

/-- A shutdown goes on by the owner's own moves only. -/
theorem callLeft_worker (hmove : Moves B s .worker t) : t.callLeft = s.callLeft := by
  unfold callLeft
  rw [owner_eq_of_worker hmove]

/-- The consumer and the users of the frame counters delay nobody. -/
theorem left_of_ne {m : Mover} (hmove : Moves B s m t) (hworker : m ≠ .worker) (howner : m ≠ .owner)
    (hcall : ∀ c, m ≠ .call c) : t.callLeft = s.callLeft ∧ t.workLeft B = s.workLeft B := by
  cases m with
  | worker => exact absurd rfl hworker
  | owner => exact absurd rfl howner
  | call c => exact absurd rfl (hcall c)
  | _ =>
    cases hmove
    exact ⟨rfl, rfl⟩

/-- An owner that waits for the encode thread does not wait for a thread that is blocked. -/
theorem IsLawful.not_blocked (h : s.IsLawful) :
    ¬ (s.owner = .joining ∧ s.worker = .receiving ∧ s.inbound = []) := by
  rintro ⟨ho, hw, hi⟩
  exact (h.relies_of ho).2.2 hw hi

/-- As long as a shutdown has not returned, the owner or the encode thread can move. -/
theorem IsLawful.can_move (h : s.IsLawful) (hstop : s.stop = true)
    (ho : ∀ a, s.owner ≠ .ready a) :
    (s.next B .owner).isSome = true ∨ (s.next B .worker).isSome = true := by
  rcases h.owner_of_stop hstop with ⟨a, hs⟩ | hs | hs | hs
  · exact absurd hs (ho a)
  · exact .inl (by simp [next, ownerStep, hs])
  · exact .inl (by simp [next, ownerStep, hs])
  · obtain ⟨-, hthread, hqueued⟩ := h.relies_of hs
    cases hw : s.worker with
    | held => exact absurd hw (h.ne_held hthread)
    | gone crashed => exact .inl (by simp [next, ownerStep, hs, hw])
    | receiving =>
      obtain ⟨m, rest, hi⟩ := List.exists_cons_of_ne_nil (hqueued hw)
      exact .inr (by simp [next, workerStep, hw, hi])
    | publishing effects =>
      refine .inr ?_
      cases effects <;> simp [next, workerStep, hw]
    | _ => exact .inr (by simp [next, workerStep, hw])

/-- A pipeline that is over stays over, whatever the owner calls. -/
theorem IsOver.move {m : Mover} (h : s.IsOver) (hlawful : s.IsLawful) (hmove : Moves B s m t) :
    t.IsOver := by
  have hworker := hlawful.worker_eq_of_gone h.isGone hmove
  have hgone : t.worker.isGone = true := by
    rw [hworker]
    exact h.isGone
  have hheld := Worker.ne_held_of_isGone h.isGone
  cases hmove with
  | start ho hw => exact absurd hw hheld
  | spawn ho => exact absurd (hlawful.relies_of ho).2 hheld
  | spawnRefused ho => exact absurd (hlawful.relies_of ho).2 hheld
  | release ho ht => exact absurd (h.thread_eq.symm.trans ht) Bool.false_ne_true
  | releaseIdle ho ht =>
    refine ⟨rfl, hgone, ?_⟩
    exact (thread_dropHeld s).trans ht
  | join ho hw => exact ⟨rfl, hgone, rfl⟩
  | @effect e effects hw => exact absurd h.isGone (by rw [hw]; exact Bool.false_ne_true)
  | _ => exact ⟨h.phase_eq, hgone, h.thread_eq⟩

/-- Until the next call the encode thread and the owner make no more moves than are left. -/
theorem left_run (h : s.IsLawful) (hstop : s.stop = true) (schedule : List Mover)
    (hcalls : ∀ x ∈ s.moves B schedule, ∀ c, x.mover ≠ .call c) :
    (s.moves B schedule).countP (fun x => x.mover.isBusy) +
      ((s.run B schedule).workLeft B + (s.run B schedule).callLeft) ≤
        s.workLeft B + s.callLeft := by
  revert hcalls
  refine run_induction_of
    (P := fun history t => (∀ x ∈ history, ∀ c, x.mover ≠ .call c) →
      history.countP (fun x => x.mover.isBusy) + (t.workLeft B + t.callLeft) ≤
        s.workLeft B + s.callLeft)
    (I := fun _ t => t.IsLawful ∧ t.stop = true)
    (fun schedule => ⟨isLawful_run h schedule, (begun_eq_nil_of_stop hstop schedule).1⟩)
    (fun _ => by simp) ?_ schedule
  rintro history t m u ⟨ht, hset⟩ ih hnext hcalls
  have hbefore := ih fun x hx => hcalls x (List.mem_append_left _ hx)
  have hm : ∀ c, m ≠ .call c :=
    hcalls ⟨t, m, u⟩ (List.mem_append_right _ (List.mem_singleton_self _))
  have hmove := moves_of_next hnext
  rw [List.countP_append, List.countP_singleton]
  by_cases hworker : m = .worker
  · subst hworker
    have hless := workLeft_worker hmove hset
    have hsame := callLeft_worker hmove
    simp only [show Mover.isBusy .worker = true from rfl, if_true]
    omega
  · by_cases howner : m = .owner
    · subst howner
      obtain ⟨hless, hsame⟩ := callLeft_owner ht hmove hset
      simp only [show Mover.isBusy .owner = true from rfl, if_true]
      omega
    · obtain ⟨hcall, hwork⟩ := left_of_ne hmove hworker howner hm
      have hidle : m.isBusy = false := by
        cases m <;> first
          | exact absurd rfl hworker
          | exact absurd rfl howner
          | rfl
      rw [if_neg (by rw [hidle]; exact Bool.false_ne_true)]
      omega

end System

variable {β : Type} {B : Backend β} {s t : System β}

/-- How a pipeline that is over goes on: nothing is published, and the consumer receives what was
left to it. -/
structure StaysOver (s t : System β) (history : List (Move β)) : Prop where
  isOver : t.IsOver
  published_eq : history.flatMap Move.published = []
  received_prefix : history.flatMap Move.received <+: s.outbound
  outbound_eq : t.receiver = true → s.outbound = history.flatMap Move.received ++ t.outbound
  /-- After the last result the consumer is told that none will come any more. -/
  receive_eq_none_iff : t.receiver = true →
    (t.receive = none ↔ history.flatMap Move.received = s.outbound)
  closed_iff : t.closed = true ↔ t.receive = none

/-- There is nothing to receive exactly if the queue is empty. -/
theorem System.receive_eq_none_iff : s.receive = none ↔ s.outbound = [] := by
  unfold System.receive
  split <;> simp [*]

/-- A pipeline that is over goes on like that along every schedule. -/
theorem staysOver_run (hover : s.IsOver) (hlawful : s.IsLawful)
    (hlost : s.receiver = false → s.outbound = []) (schedule : List Mover) :
    StaysOver s (s.run B schedule) (s.moves B schedule) := by
  obtain ⟨hkept, hnone, hdelivery⟩ : (s.run B schedule).IsOver ∧
      (s.moves B schedule).flatMap Move.published = [] ∧
      Delivery (s.run B schedule) s.outbound ((s.moves B schedule).flatMap Move.received) := by
    refine System.run_induction_of
      (P := fun history t => t.IsOver ∧ history.flatMap Move.published = [] ∧
        Delivery t s.outbound (history.flatMap Move.received))
      (I := fun _ t => t.IsLawful) (System.isLawful_run hlawful)
      ⟨hover, rfl, List.nil_prefix, fun _ => rfl, hlost⟩ ?_ schedule
    rintro history t m u ht ⟨hgone, hnone, hdelivery⟩ hnext
    have hmove := System.moves_of_next hnext
    have hquiet : Move.published ⟨t, m, u⟩ = [] := by
      by_cases hm : m = .worker
      · subst hm
        exact absurd ((System.not_gone_of_worker hmove).symm.trans hgone.isGone) Bool.false_ne_true
      · cases m <;> first
          | exact absurd rfl hm
          | rfl
    have hstep := delivery_move hdelivery hmove
    rw [hquiet, List.append_nil] at hstep
    rw [List.flatMap_append, List.flatMap_append, List.flatMap_singleton, List.flatMap_singleton,
      hnone, hquiet]
    exact ⟨hgone.move ht hmove, rfl, hstep⟩
  refine ⟨hkept, hnone, hdelivery.received_prefix, hdelivery.published_eq, fun hlistens => ?_, ?_⟩
  · rw [System.receive_eq_none_iff, hdelivery.published_eq hlistens]
    exact List.self_eq_append_right.symm
  · rw [System.receive_eq_none_iff, System.closed, hkept.isGone, Bool.true_and,
      List.isEmpty_iff]

/-- How a pipeline shuts down: `past` are the moves up to a state with the stop flag set, `since`
those from there on. -/
structure ShutsDown (B : Backend β) (s t : System β) (past since : List (Move β)) : Prop where
  /-- No command is begun any more. -/
  begun_eq_nil : since.flatMap Move.begun = []
  /-- What is still counted or dealt with is the command in hand. -/
  counted_prefix : since.flatMap Move.counted <+: s.worker.uncounted
  dealt_prefix : (since.flatMap Move.dealt).map Dealt.label <+: s.worker.inHand
  /-- The commands begun are the first ones submitted, and all were dealt with but the one in hand
  or lost in a crash. -/
  begun : Begun (past ++ since) t
  isBy : ∀ d ∈ (past ++ since).flatMap Move.dealt, d.IsBy B s.config
  /-- Of commands that were dealt with alone come the results, the totals and the frames marked as
  sent, now or while they are still pending. -/
  seen_eq : (past ++ since).flatMap Move.seen ++ t.worker.effects =
    ((past ++ since).flatMap Move.dealt).flatMap Dealt.effects
  grows : Stats.zero.Grows t.stats ((past ++ since).flatMap Move.counted)
    ((past ++ since).flatMap Move.seen)
  marked_eq : (past ++ since).flatMap Move.marked ++ markedBy t.worker.effects =
    framesOf (((past ++ since).flatMap Move.dealt).map Dealt.label)
  /-- An encode thread that ended has published the whole groups of the commands begun, and dropped
  its queue. -/
  published_eq : t.worker = .gone false → ∃ groups,
    List.Forall₂ (fun x g => IsGroup x.1 x.2 g) (past.flatMap Move.begun) groups ∧
      (past ++ since).flatMap Move.published = groups.flatten
  inbound_eq : t.worker.isGone = true → t.inbound = []
  /-- The shutdown does not wait for a thread that is blocked, and can go on until it returns. -/
  not_blocked : ¬ (t.owner = .joining ∧ t.worker = .receiving ∧ t.inbound = [])
  can_move : (∀ a, t.owner ≠ .ready a) →
    (t.next B .owner).isSome = true ∨ (t.next B .worker).isSome = true
  left_le : (∀ x ∈ since, ∀ c, x.mover ≠ .call c) →
    since.countP (fun x => x.mover.isBusy) + (t.workLeft B + t.callLeft) ≤
      s.workLeft B + s.callLeft
  /-- Once it has returned, the pipeline is over and stays so. -/
  staysOver : ∀ a, t.owner = .ready a → t.IsOver ∧
    (t.receiver = true → (past ++ since).flatMap Move.published =
      (past ++ since).flatMap Move.received ++ t.outbound) ∧
    ∀ schedule, StaysOver t (t.run B schedule) (t.moves B schedule)

/-- Commands that were dealt with have their groups as results. -/
theorem forall_isGroup {config : PipelineConfig} {ds : List (Dealt β)}
    (h : ∀ d ∈ ds, d.IsBy B config) :
    List.Forall₂ (fun x g => IsGroup x.1 x.2 g) (ds.map Dealt.label) (ds.map Dealt.results) := by
  rw [List.forall₂_map_left_iff, List.forall₂_map_right_iff, List.forall₂_same]
  exact fun d hd => (h d hd).isGroup

/-- The frames of commands that were dealt with are what their effects mark as sent. -/
theorem markedBy_flatMap {config : PipelineConfig} {ds : List (Dealt β)}
    (h : ∀ d ∈ ds, d.IsBy B config) :
    markedBy (ds.flatMap Dealt.effects) = framesOf (ds.map Dealt.label) := by
  rw [← (marksFirst_flatMap fun d hd => (h d hd).marksFirst).completed_eq, sentBy_flatMap]
  exact completedBy_flatten (forall_isGroup h)

/-- An encode thread that ended without a crash has dealt with every command begun. -/
theorem Begun.dealt_eq_of_gone {history : List (Move β)} (h : Begun history s)
    (hgone : s.worker = .gone false) :
    (history.flatMap Move.dealt).map Dealt.label = history.flatMap Move.begun := by
  obtain ⟨lost, hbegun, hlost⟩ := h.dealt_eq
  rw [hgone] at hbegun hlost
  obtain rfl := List.eq_nil_of_length_eq_zero hlost
  simpa only [Worker.inHand, List.append_nil] using hbegun.symm

/-- What is counted while nothing is begun was begun and not counted. -/
theorem counted_prefix_of_begun {past since : List (Move β)} (hpast : Begun past s)
    (h : Begun (past ++ since) t) (hnone : since.flatMap Move.begun = []) :
    since.flatMap Move.counted <+: s.worker.uncounted := by
  have hcounted := h.counted_eq
  rw [List.flatMap_append, List.flatMap_append, hnone, List.append_nil, hpast.counted_eq,
    List.append_assoc, List.append_cancel_left_eq] at hcounted
  exact ⟨_, hcounted.symm⟩

/-- What is dealt with while nothing is begun was in hand. -/
theorem dealt_prefix_of_begun {past since : List (Move β)} (hpast : Begun past s)
    (h : Begun (past ++ since) t) (hnone : since.flatMap Move.begun = [])
    (hcrash : s.worker = .gone true → t.worker = .gone true) :
    (since.flatMap Move.dealt).map Dealt.label <+: s.worker.inHand := by
  obtain ⟨lost, hbefore, hlost⟩ := hpast.dealt_eq
  obtain ⟨lost', hafter, hlost'⟩ := h.dealt_eq
  rw [List.flatMap_append, List.flatMap_append, hnone, List.append_nil, hbefore, List.map_append,
    List.append_assoc, List.append_assoc, List.append_assoc, List.append_cancel_left_eq] at hafter
  by_cases hgone : s.worker = .gone true
  · -- The command lost in a crash is lost before and after, which leaves none to deal with.
    rw [if_pos hgone] at hlost
    rw [if_pos (hcrash hgone)] at hlost'
    have hlength := congrArg List.length hafter
    simp only [List.length_append, List.length_map, hgone, Worker.inHand, List.length_nil, hlost,
      hlost'] at hlength
    rw [List.eq_nil_of_length_eq_zero (l := since.flatMap Move.dealt) (by omega)]
    exact List.nil_prefix
  · rw [if_neg hgone] at hlost
    rw [List.eq_nil_of_length_eq_zero hlost, List.append_nil] at hafter
    exact ⟨_, hafter.symm⟩

/-- An encode thread that ended without a crash has published the groups of the commands begun. -/
theorem published_eq_of_gone {history : List (Move β)} (htraced : Traced B s t history)
    (hstart : s.worker.effects = []) (hbegun : Begun history t) (hgone : t.worker = .gone false) :
    ∃ groups, List.Forall₂ (fun x g => IsGroup x.1 x.2 g) (history.flatMap Move.begun) groups ∧
      history.flatMap Move.published = groups.flatten := by
  refine ⟨(history.flatMap Move.dealt).map Dealt.results, ?_, ?_⟩
  · rw [← hbegun.dealt_eq_of_gone hgone]
    exact forall_isGroup htraced.isBy
  · have hseen := htraced.effects_eq
    rw [hstart, List.nil_append, hgone, show (Worker.gone false).effects = [] from rfl,
      List.append_nil] at hseen
    rw [published_flatMap, ← sentBy_flatMap, hseen]

/-- Along every schedule on which the stop flag gets set, the pipeline shuts down. -/
theorem shutsDown_run (B : Backend β) (config : PipelineConfig) (backend : β)
    (before later : List Mover) (hstop : ((System.new config backend).run B before).stop = true) :
    let start := System.new config backend
    let s := start.run B before
    ShutsDown B s (s.run B later) (start.moves B before) (s.moves B later) := by
  intro start s
  have hnew : start.StartsHeld := (account_new config backend).1
  have hrun : start.run B (before ++ later) = s.run B later := System.run_append start before later
  have hmoves : start.moves B (before ++ later) = start.moves B before ++ s.moves B later :=
    System.moves_append start before later
  obtain ⟨hset, hnone⟩ := begun_eq_nil_of_stop (B := B) hstop later
  have hlawful₀ : s.IsLawful := System.isLawful_run (System.isLawful_new config backend) before
  have hlawful : (s.run B later).IsLawful := System.isLawful_run hlawful₀ later
  have hpast : Begun (start.moves B before) s := begun_run B config backend before
  have hbegun : Begun (start.moves B before ++ s.moves B later) (s.run B later) := by
    rw [← hmoves, ← hrun]
    exact begun_run B config backend (before ++ later)
  have htraced : Traced B start (s.run B later) (start.moves B before ++ s.moves B later) := by
    rw [← hmoves, ← hrun]
    exact traced_run hnew (before ++ later)
  have hdelivery : Delivery (s.run B later)
      ((start.moves B before ++ s.moves B later).flatMap Move.published)
      ((start.moves B before ++ s.moves B later).flatMap Move.received) := by
    rw [← hmoves, ← hrun]
    exact (account_run B config backend (before ++ later)).2.2
  have hconfig : s.config = config := (traced_run hnew before).config_eq
  set t := s.run B later
  set past := start.moves B before
  set since := s.moves B later
  have hseen : ((past ++ since).flatMap Move.dealt).flatMap Dealt.effects =
      (past ++ since).flatMap Move.seen ++ t.worker.effects := htraced.effects_eq
  have hmarked : (past ++ since).flatMap Move.marked =
      markedBy ((past ++ since).flatMap Move.seen) := (List.filterMap_flatMap ..).symm
  have hover : ∀ a, t.owner = .ready a → t.IsOver := by
    intro a ho
    have hrelies := hlawful.relies
    rw [ho] at hrelies
    exact hrelies hset
  constructor
  · exact hnone
  · exact counted_prefix_of_begun hpast hbegun hnone
  · exact dealt_prefix_of_begun hpast hbegun hnone fun hgone =>
      (hlawful₀.worker_run_of_gone (by rw [hgone]; rfl) later).trans hgone
  · exact hbegun
  · rw [hconfig]
    exact htraced.isBy
  · exact hseen.symm
  · exact htraced.grows
  · rw [hmarked, markedBy, markedBy, ← List.filterMap_append, ← hseen]
    exact markedBy_flatMap htraced.isBy
  · intro hgone
    have hpublished := published_eq_of_gone htraced rfl hbegun hgone
    rwa [List.flatMap_append (f := Move.begun), hnone, List.append_nil] at hpublished
  · exact hlawful.inbound_eq
  · exact hlawful.not_blocked
  · exact hlawful.can_move hset
  · exact System.left_run hlawful₀ hstop later
  · exact fun a ho => ⟨hover a ho, hdelivery.published_eq,
      staysOver_run (hover a ho) hlawful hdelivery.outbound_eq⟩

/-- Two updates are queued, and the stop flag is set when the first is about to be dealt with. -/
def stopInHand : List Mover :=
  [.call (.start none), .owner] ++
    (List.replicate 2 [.call (.submit (.surface ⟨.empty, [], 0, 0, 0, 0, 0, 0, .nv12, 0, some 1⟩)),
      .owner, .owner, .owner]).flatten ++ List.replicate 4 .worker ++ [.call .shutdown]

/-- The schedule shuts the pipeline down whatever comes after it, such as the owner going on to wait
and the encode thread going on to its end. -/
theorem shutsDown_stopInHand :
    let start := System.new default ⟨[], .fail .frameSkipped, []⟩
    let s := start.run ScriptedBackend.backend stopInHand
    let later := [.owner, .owner] ++ List.replicate 10 .worker ++ [.owner, .receive]
    s.stop = true ∧ ShutsDown ScriptedBackend.backend s (s.run ScriptedBackend.backend later)
      (start.moves ScriptedBackend.backend stopInHand) (s.moves ScriptedBackend.backend later) :=
  have hstop : ((System.new default ⟨[], .fail .frameSkipped, []⟩).run ScriptedBackend.backend
      stopInHand).stop = true := rfl
  ⟨hstop, shutsDown_run _ _ _ _ _ hstop⟩

end FrameEncoder
