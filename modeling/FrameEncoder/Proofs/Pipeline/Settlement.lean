import FrameEncoder.Proofs.Pipeline.Shutdown
import FrameEncoder.Proofs.Pipeline.Totals

/-!
# Pipelines with nothing left to do

When every command that was submitted has been dealt with and every result received, the results
received are the groups of the submitted commands, one after the other. So one last result was
received for each of them, the totals are those of the results received, and the frames completed
for the consumer are those of the commands.
-/

namespace FrameEncoder

variable {β : Type}

/-- Whether everything that was submitted along a history has been dealt with and everything that
came of it received. -/
structure Settled (history : List (Move β)) : Prop where
  dealt_eq : (history.flatMap Move.dealt).map Dealt.label = history.flatMap Move.submitted
  received_eq : history.flatMap Move.received =
    ((history.flatMap Move.dealt).map Dealt.results).flatten

section Schedule

variable (B : Backend β) (config : PipelineConfig) (backend : β) (schedule : List Mover)

/-- Along a schedule that leaves no effect to be seen and no result to be received, the results
received are those of the commands dealt with. -/
theorem received_eq_of_quiet :
    let start := System.new config backend
    let history := start.moves B schedule
    let s := start.run B schedule
    s.receiver = true → s.outbound = [] → s.worker.effects = [] →
      history.flatMap Move.received =
        ((history.flatMap Move.dealt).map Dealt.results).flatten := by
  intro start history s hreceiver houtbound hpending
  obtain ⟨-, -, hdelivery⟩ := account_run B config backend schedule
  have hpublished := hdelivery.published_eq hreceiver
  have hseen := (traced_run (B := B) (account_new config backend).1 schedule).effects_eq
  rw [show (start.run B schedule).outbound = [] from houtbound, List.append_nil] at hpublished
  rw [show (start.run B schedule).worker.effects = [] from hpending, List.append_nil] at hseen
  rw [← sentBy_flatMap, ← hpublished, published_flatMap]
  exact congrArg sentBy hseen.symm

/-- A schedule is settled that leaves the encode thread waiting with nothing queued and nothing to
be received. -/
theorem settled_of_idle :
    let start := System.new config backend
    let s := start.run B schedule
    s.receiver = true → s.outbound = [] → s.worker.isGone = false →
      s.worker.waiting s.inbound = [] → s.worker.inHand = [] → s.worker.effects = [] →
        Settled (start.moves B schedule) := by
  intro start s hreceiver houtbound hgone hwaiting hhand hpending
  have hbegun := begun_run B config backend schedule
  have hsubmitted := hbegun.submitted_eq hgone
  obtain ⟨lost, hdealt, hlost⟩ := hbegun.dealt_eq
  have hnotlost : s.worker ≠ .gone true := by
    intro hw
    rw [hw] at hgone
    cases hgone
  rw [if_neg hnotlost] at hlost
  rw [show (start.run B schedule).worker.waiting (start.run B schedule).inbound = [] from hwaiting,
    List.append_nil] at hsubmitted
  rw [show (start.run B schedule).worker.inHand = [] from hhand,
    List.eq_nil_of_length_eq_zero hlost, List.append_nil, List.append_nil] at hdealt
  exact ⟨hdealt.symm.trans hsubmitted.symm,
    received_eq_of_quiet B config backend schedule hreceiver houtbound hpending⟩

variable {B config backend schedule}

/-- Commands dealt with have one last result each. -/
theorem countP_last_of_isBy {ds : List (Dealt β)} (h : ∀ d ∈ ds, d.IsBy B config) :
    (ds.map Dealt.results).flatten.countP EncodeResult.last = ds.length := by
  rw [← sentBy_flatMap, ← (tallies_flatMap h).last_eq, List.length_map]

/-- A schedule is settled that ends the encode thread without a crash, leaves nothing to be received
and has as many last results received as commands submitted. -/
theorem settled_of_gone :
    let start := System.new config backend
    let history := start.moves B schedule
    let s := start.run B schedule
    s.receiver = true → s.outbound = [] → s.worker = .gone false →
      (history.flatMap Move.submitted).length ≤
        (history.flatMap Move.received).countP EncodeResult.last → Settled history := by
  intro start history s hreceiver houtbound hgone hall
  have hreceived := received_eq_of_quiet B config backend schedule hreceiver houtbound
    (by rw [show (start.run B schedule).worker = _ from hgone]; rfl)
  have hbegun := begun_run B config backend schedule
  have hisBy := (traced_run (B := B) (account_new config backend).1 schedule).isBy
  have hdealt : (history.flatMap Move.dealt).map Dealt.label <+: history.flatMap Move.submitted :=
    hbegun.dealt_eq_of_gone hgone ▸ hbegun.begun_prefix
  refine ⟨hdealt.eq_of_length_le ?_, hreceived⟩
  rw [List.length_map, ← countP_last_of_isBy hisBy, ← hreceived]
  exact hall

/-- In a settled schedule one last result was received for each command. -/
theorem Settled.countP_last :
    let history := (System.new config backend).moves B schedule
    Settled history →
      (history.flatMap Move.received).countP EncodeResult.last =
        (history.flatMap Move.submitted).length := by
  intro history h
  have hisBy := (traced_run (B := B) (account_new config backend).1 schedule).isBy
  rw [h.received_eq, countP_last_of_isBy hisBy, ← h.dealt_eq, List.length_map]

/-- In a settled schedule the frames of all commands were completed. -/
theorem Settled.completed_eq :
    let history := (System.new config backend).moves B schedule
    Settled history →
      history.flatMap Move.completed = framesOf (history.flatMap Move.submitted) := by
  intro history h
  have hisBy := (traced_run (B := B) (account_new config backend).1 schedule).isBy
  have hcompleted : history.flatMap Move.completed = completedBy (history.flatMap Move.received) :=
    (List.filterMap_flatMap ..).symm
  rw [hcompleted, h.received_eq, ← h.dealt_eq]
  exact completedBy_flatten (forall_isGroup hisBy)

/-- In a settled schedule the totals are those of the results received, but for the failures of
commands that describe no update. -/
theorem Settled.totals_eq :
    let start := System.new config backend
    let history := start.moves B schedule
    let s := start.run B schedule
    let received := history.flatMap Move.received
    Settled history → s.worker.isBetween = true →
      s.stats.commands = (history.flatMap Move.submitted).length ∧
        s.stats.results = received.length ∧
        s.stats.skipped = received.countP EncodeResult.isSkipped ∧
        s.stats.failed +
          ((history.flatMap Move.submitted).map Prod.snd).countP Command.isMalformed =
          received.countP EncodeResult.isFailed := by
  intro start history s received h hbetween
  have htallies := tallies_run B config backend schedule hbetween
  have hseen := seen_eq_of_isBetween B config backend schedule hbetween
  obtain ⟨-, hcounted⟩ := settled_of_isBetween (begun_run B config backend schedule) hbetween
  have hgrows : Stats.zero.Grows s.stats (history.flatMap Move.counted)
      (history.flatMap Move.seen) := (traced_run (account_new config backend).1 schedule).grows
  have hreceived : received = sentBy (history.flatMap Move.seen) := by
    rw [← hseen, sentBy_flatMap]
    exact h.received_eq
  have hcommands : (history.flatMap Move.submitted).map Prod.snd =
      (history.flatMap Move.dealt).map Dealt.command := by
    rw [← h.dealt_eq, List.map_map]
    rfl
  refine ⟨?_, ?_, ?_, ?_⟩
  · rw [hgrows.commands_eq, hcounted, ← h.dealt_eq, List.length_map]
    exact Nat.zero_add _
  · rw [hgrows.results_eq, htallies.payloads_eq, List.length_map, ← hreceived]
    exact Nat.zero_add _
  · rw [hgrows.skipped_eq, htallies.skipped_eq, ← hreceived]
    exact Nat.zero_add _
  · rw [hgrows.failed_eq, hcommands, hreceived, ← htallies.failed_eq]
    exact congrArg (· + _) (Nat.zero_add _)

end Schedule

end FrameEncoder
