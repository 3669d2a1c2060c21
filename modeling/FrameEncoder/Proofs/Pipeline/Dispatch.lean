import FrameEncoder.Proofs.Pipeline.EffectTrace
import FrameEncoder.Proofs.Pipeline.Lifecycle

/-!
# The commands that are begun

The encode thread begins a command when it has taken it off the queue and seen once more that the
stop flag is not set. Along every schedule the commands begun are the first ones submitted. Each of
them was counted, unless that comes next, and dealt with, unless it is in hand or its encode call
crashed. Once the stop flag is set none is begun any more.
-/

namespace FrameEncoder

/-- The command that was begun and not dealt with. -/
def Worker.inHand : Worker → List (Nat × Command)
  | .counting seq c | .encoding seq c => [(seq, c)]
  | _ => []

/-- The command that was begun and not counted. -/
def Worker.uncounted : Worker → List (Nat × Command)
  | .counting seq c => [(seq, c)]
  | _ => []

/-- The commands that were submitted and not begun, if the encode thread is there. -/
def Worker.waiting : Worker → List Message → List (Nat × Command)
  | .rechecking m, inbound => queued (m :: inbound)
  | _, inbound => queued inbound

/-- The command a move began. -/
def Move.begun {β : Type} (x : Move β) : List (Nat × Command) :=
  match x.mover, x.before.worker, x.after.worker with
  | .worker, .rechecking (.command seq c), .counting _ _ => [(seq, c)]
  | _, _, _ => []

/-- The command that was dealt with, under its number. -/
def Dealt.label {β : Type} (d : Dealt β) : Nat × Command := (d.seq, d.command)

variable {β : Type} {B : Backend β} {s t : System β}

namespace System

/-- Only the encode thread begins, counts or deals with a command. -/
theorem begun_of_ne {m : Mover} (h : m ≠ .worker) :
    Move.begun ⟨s, m, t⟩ = [] ∧ Move.counted ⟨s, m, t⟩ = [] ∧ Move.dealt ⟨s, m, t⟩ = [] := by
  cases m <;> first
    | exact absurd rfl h
    | exact ⟨rfl, rfl, rfl⟩

/-- A command that was begun is counted next. -/
theorem counted_move {m : Mover} (hheld : s.StartsHeld) (hmove : Moves B s m t) :
    s.worker.uncounted ++ Move.begun ⟨s, m, t⟩ =
      Move.counted ⟨s, m, t⟩ ++ t.worker.uncounted := by
  by_cases hm : m = .worker
  · subst hm
    cases hmove <;> simp_all [Move.begun, Move.counted, Worker.uncounted, endWorker]
  · obtain ⟨hbegun, hcounted, -⟩ := begun_of_ne (s := s) (t := t) hm
    rw [hbegun, hcounted, List.append_nil, List.nil_append,
      eq_of_ne Worker.uncounted rfl rfl hheld hmove hm]

/-- A command that was begun is in hand until it is dealt with, or lost in a crash. -/
theorem dealt_move {m : Mover} (hheld : s.StartsHeld) (hmove : Moves B s m t)
    (hcrash : s.worker ≠ .gone true) :
    ∃ lost, s.worker.inHand ++ Move.begun ⟨s, m, t⟩ =
        (Move.dealt ⟨s, m, t⟩).map Dealt.label ++ t.worker.inHand ++ lost ∧
      lost.length = if t.worker = .gone true then 1 else 0 := by
  by_cases hm : m = .worker
  · subst hm
    cases hmove with
    | @crash seq c hw hp =>
      refine ⟨[(seq, c)], ?_, rfl⟩
      simp [Move.begun, Move.dealt, Worker.inHand, endWorker, hw]
    | _ =>
      refine ⟨[], ?_, by simp [endWorker]⟩
      simp_all [Move.begun, Move.dealt, Dealt.label, Worker.inHand, endWorker]
  · obtain ⟨hbegun, -, hdealt⟩ := begun_of_ne (s := s) (t := t) hm
    rw [hbegun, hdealt]
    have hhand : t.worker.inHand = s.worker.inHand :=
      eq_of_ne Worker.inHand rfl rfl hheld hmove hm
    have hstill : t.worker ≠ .gone true := by
      rw [eq_of_ne (· ≠ .gone true) (by simp) (by simp) hheld hmove hm]
      exact hcrash
    exact ⟨[], by simp [hhand], by rw [if_neg hstill]; rfl⟩

/-- A queued message waits behind those before it. -/
theorem waiting_append (w : Worker) (inbound : List Message) (m : Message) :
    w.waiting (inbound ++ [m]) = w.waiting inbound ++ queued [m] := by
  cases w with
  | rechecking m' => exact queued_append (m' :: inbound) [m]
  | _ => exact queued_append inbound [m]

/-- A command that was submitted waits until it is begun, as long as the encode thread is there. -/
theorem waiting_move {m : Mover} (hheld : s.StartsHeld) (hmove : Moves B s m t)
    (hgone : t.worker.isGone = false) :
    s.worker.waiting s.inbound ++ Move.submitted ⟨s, m, t⟩ =
      Move.begun ⟨s, m, t⟩ ++ t.worker.waiting t.inbound := by
  have hdrop : (s.dropHeld B).worker.isGone = false → s.dropHeld B = s := by
    unfold dropHeld
    split
    · exact nofun
    · exact fun _ => rfl
  by_cases howner : m = .owner
  · subst howner
    cases hmove with
    | spawn ho => simp [Move.submitted, Move.begun, Worker.waiting, answer, ho, hheld _ ho]
    | spawnRefused ho => cases hgone
    | number ho => simp [Move.submitted, Move.begun, ho]
    | mark ho => simp [Move.submitted, Move.begun, ho]
    | queueGone ho hw => simp [Move.submitted, Move.begun, answer, ho]
    | @queue seq c ho hw =>
      have hsubmitted : ∀ u : System β, Move.submitted ⟨s, .owner, u.answer (.submitted seq)⟩ =
          [(seq, c)] := fun u => by simp [Move.submitted, answer, ho]
      rw [hsubmitted]
      exact (waiting_append s.worker s.inbound (.command seq c)).symm
    | release ho ht =>
      show _ ++ _ = [] ++ (s.dropHeld B).worker.waiting (s.dropHeld B).inbound
      rw [hdrop hgone]
      simp [Move.submitted, ho]
    | releaseIdle ho ht =>
      show _ ++ _ = [] ++ (s.dropHeld B).worker.waiting (s.dropHeld B).inbound
      rw [hdrop hgone]
      simp [Move.submitted, answer, ho]
    | wake ho =>
      have hthere : s.worker.isGone = false := hgone
      have hqueued := waiting_append s.worker s.inbound .wake
      simp [Move.submitted, Move.begun, ho, hthere, hqueued, queued]
    | join ho hw => exact absurd (hgone.symm.trans (by rw [hw]; rfl)) Bool.false_ne_true
  · by_cases hm : m = .worker
    · subst hm
      cases hmove with
      | stopLooping hw hs => cases hgone
      | stopRechecking hw hs => cases hgone
      | crash hw hp => cases hgone
      | take hw hi => simp [Move.submitted, Move.begun, Worker.waiting, hw, hi]
      | begin hw hs => simp [Move.submitted, Move.begun, Worker.waiting, queued, hw]
      | woken hw hs => simp [Move.submitted, Move.begun, Worker.waiting, queued, hw]
      | @effect e effects hw =>
        simp [Move.submitted, Move.begun, Worker.waiting, hw, applyEffect_inbound]
      | _ => simp [Move.submitted, Move.begun, Worker.waiting, *]
    · obtain ⟨hw, hi⟩ := worker_eq_of_ne hmove hm howner
      rw [hw, hi]
      cases m <;> first
        | exact absurd rfl hm
        | exact absurd rfl howner
        | exact List.append_nil _

/-- None is begun once the stop flag is set. -/
theorem begun_of_stop {m : Mover} (hmove : Moves B s m t) (hstop : s.stop = true) :
    Move.begun ⟨s, m, t⟩ = [] := by
  by_cases hm : m = .worker
  · subst hm
    cases hmove with
    | begin hw hs => exact absurd (hs.symm.trans hstop) Bool.false_ne_true
    | _ => simp_all [Move.begun, endWorker]
  · exact (begun_of_ne hm).1

/-- What is begun leaves the encode thread there. -/
theorem begun_of_gone {m : Mover} (hmove : Moves B s m t) (hgone : t.worker.isGone = true) :
    Move.begun ⟨s, m, t⟩ = [] := by
  by_cases hm : m = .worker
  · subst hm
    cases hmove with
    | begin hw hs => cases hgone
    | _ => simp_all [Move.begun, endWorker]
  · exact (begun_of_ne hm).1

end System

/-- The commands begun along a history, accounted for. -/
structure Begun (history : List (Move β)) (s : System β) : Prop where
  /-- The commands begun are the first ones submitted. -/
  begun_prefix : history.flatMap Move.begun <+: history.flatMap Move.submitted
  submitted_eq : s.worker.isGone = false → history.flatMap Move.submitted =
    history.flatMap Move.begun ++ s.worker.waiting s.inbound
  counted_eq : history.flatMap Move.begun = history.flatMap Move.counted ++ s.worker.uncounted
  /-- All were dealt with but the one in hand, or the one lost in a crash. -/
  dealt_eq : ∃ lost, history.flatMap Move.begun =
    (history.flatMap Move.dealt).map Dealt.label ++ s.worker.inHand ++ lost ∧
      lost.length = if s.worker = .gone true then 1 else 0

/-- Every move keeps account of the commands begun. -/
theorem Begun.concat {history : List (Move β)} (h : Begun history s) {m : Mover}
    (hheld : s.StartsHeld) (hlawful : s.IsLawful) (hmove : System.Moves B s m t) :
    Begun (history ++ [⟨s, m, t⟩]) t := by
  have hsubmitted : t.worker.isGone = false →
      history.flatMap Move.submitted ++ Move.submitted ⟨s, m, t⟩ =
        history.flatMap Move.begun ++ Move.begun ⟨s, m, t⟩ ++ t.worker.waiting t.inbound := by
    intro hgone
    have hthere : s.worker.isGone = false := eq_false_of_ne_true fun hs =>
      Bool.false_ne_true (hgone.symm.trans (by rw [hlawful.worker_eq_of_gone hs hmove, hs]))
    rw [h.submitted_eq hthere, List.append_assoc, System.waiting_move hheld hmove hgone,
      List.append_assoc]
  constructor <;>
    simp only [List.flatMap_append, List.flatMap_singleton, List.map_append]
  · cases hgone : t.worker.isGone with
    | false =>
      rw [hsubmitted hgone]
      exact List.prefix_append _ _
    | true =>
      rw [System.begun_of_gone hmove hgone, List.append_nil]
      exact h.begun_prefix.trans (List.prefix_append _ _)
  · exact hsubmitted
  · rw [h.counted_eq, List.append_assoc, System.counted_move hheld hmove, List.append_assoc]
  · obtain ⟨lost, hbegun, hlost⟩ := h.dealt_eq
    by_cases hcrash : s.worker = .gone true
    · -- Nothing is begun or dealt with after a crash.
      have hgone : s.worker.isGone = true := by rw [hcrash]; rfl
      have hsame : t.worker = s.worker := hlawful.worker_eq_of_gone hgone hmove
      have hm : m ≠ .worker := by
        rintro rfl
        exact Bool.false_ne_true ((System.not_gone_of_worker hmove).symm.trans hgone)
      obtain ⟨hnone, -, hdealt⟩ := System.begun_of_ne (s := s) (t := t) hm
      refine ⟨lost, ?_, hsame ▸ hlost⟩
      rw [hnone, hdealt, List.append_nil, List.map_nil, List.append_nil, hsame]
      exact hbegun
    · rw [if_neg hcrash] at hlost
      obtain rfl := List.eq_nil_of_length_eq_zero hlost
      obtain ⟨lost, hstep, hlost⟩ := System.dealt_move hheld hmove hcrash
      refine ⟨lost, ?_, hlost⟩
      rw [hbegun, List.append_nil, List.append_assoc, hstep]
      simp only [List.append_assoc]

/-- Every schedule keeps account of the commands begun. -/
theorem begun_run (B : Backend β) (config : PipelineConfig) (backend : β)
    (schedule : List Mover) :
    let start := System.new config backend
    Begun (start.moves B schedule) (start.run B schedule) := by
  intro start
  refine System.run_induction_of (P := fun history s => Begun history s)
    (I := fun _ s => s.StartsHeld ∧ s.IsLawful)
    (fun schedule => ⟨(account_run B config backend schedule).1,
      System.isLawful_run (System.isLawful_new config backend) schedule⟩)
    ⟨List.prefix_rfl, fun _ => rfl, rfl, [], rfl, rfl⟩ ?_ schedule
  rintro history s m t ⟨hheld, hlawful⟩ h hnext
  exact h.concat hheld hlawful (System.moves_of_next hnext)

/-- No schedule begins a command once the stop flag is set. -/
theorem begun_eq_nil_of_stop (hstop : s.stop = true) (schedule : List Mover) :
    (s.run B schedule).stop = true ∧ (s.moves B schedule).flatMap Move.begun = [] := by
  refine System.run_induction
    (P := fun history t => t.stop = true ∧ history.flatMap Move.begun = []) ⟨hstop, rfl⟩ ?_ schedule
  rintro history t m u ⟨ht, hnone⟩ hnext
  have hmove := System.moves_of_next hnext
  refine ⟨System.stop_of_move hmove ht, ?_⟩
  rw [List.flatMap_append, hnone, List.flatMap_singleton, System.begun_of_stop hmove ht]
  rfl

end FrameEncoder
