import FrameEncoder.Proofs.Pipeline.Outcomes
import FrameEncoder.Proofs.Probe.Starvation

/-!
# The report of a workload

A workload that is not stopped early and whose encode thread does not crash submits all its frames,
and its report counts each of them as completed. What became of the frames is counted as the
pipeline counts it, as far as 32-bit counters go, and no frame is in flight any more. Such a report
comes at the end of every run, unless the workload has frames of which none may be in flight.
-/

namespace FrameEncoder

namespace Probe

/-- A synthetic frame has the pixels its tile needs. -/
theorem size_framePixels (format : PixelFormat) (width height shift : Nat) :
    (framePixels format width height shift).size = format.tileLength width height := by
  cases format with
  | nv12 =>
    rw [framePixels, ByteArray.size_append, lumaPattern, Bytes.size_generate, Bytes.size_generate]
    rfl
  | bgra | rgba => exact Bytes.size_generate ..

/-- A synthetic frame describes an update. -/
theorem resolve_syntheticFrame (w : Workload) (index frameId : UInt32) :
    (Command.surface (syntheticFrame w index frameId)).resolve =
      .ok (syntheticFrame w index frameId) := by
  have hsize : ¬ (syntheticFrame w index frameId).data.size <
      (syntheticFrame w index frameId).requiredLength := by
    rw [SurfaceUpdate.requiredLength]
    exact Nat.not_lt.mpr (Nat.le_of_eq (size_framePixels ..).symm)
  have hcheck : (syntheticFrame w index frameId).checkData = .ok () :=
    if_neg fun h => hsize h.2
  rw [Command.resolve, Command.describe]
  simp only [bind, Except.bind, hcheck]
  rfl

/-- How a tally counts commands that were dealt with. -/
structure Tally.CountsOutcomes {β : Type} (t : Tally) (dealt : List (Dealt β)) : Prop where
  completed_eq : t.completed.toNat = dealt.length
  /-- An encoded frame is counted for each of its results, but for multiples of what the counter can
  hold. -/
  encoded_eq : t.encoded =
    UInt32.ofNat (dealt.map fun d => if d.isEncoded then d.results.length else 0).sum
  skipped_eq : t.skipped.toNat = dealt.countP Dealt.isSkipped
  failed_eq : t.failed.toNat = dealt.countP Dealt.isFailed

section Outcomes

variable {β : Type} {B : Backend β} {config : PipelineConfig} {t : Tally} {dealt : List (Dealt β)}
  (hdealt : ∀ d ∈ dealt, d.IsBy B config)

include hdealt

/-- A tally that counts the results of commands counts their outcomes like that, unless there are
more commands than a counter can hold. -/
theorem Tally.Counts.countsOutcomes (hlt : dealt.length < 2 ^ 32)
    (h : t.Counts (dealt.map Dealt.results).flatten) : t.CountsOutcomes dealt := by
  obtain ⟨hcompleted, hencoded, hskipped, hfailed⟩ := h
  obtain ⟨hencodes, hskips, hfails⟩ := countP_results hdealt
  rw [countP_last_of_isBy hdealt] at hcompleted
  rw [hencodes] at hencoded
  rw [hskips] at hskipped
  rw [hfails] at hfailed
  refine ⟨?_, hencoded, ?_, ?_⟩
  · rw [hcompleted, UInt32.toNat_ofNat_of_lt' hlt]
  · rw [hskipped, UInt32.toNat_ofNat_of_lt' (Nat.lt_of_le_of_lt List.countP_le_length hlt)]
  · rw [hfailed, UInt32.toNat_ofNat_of_lt' (Nat.lt_of_le_of_lt List.countP_le_length hlt)]

/-- The outcomes of commands as a tally counts them are as many as their results. -/
theorem sum_outcomes_eq :
    (dealt.map fun d => if d.isEncoded then d.results.length else 0).sum +
        dealt.countP Dealt.isSkipped + dealt.countP Dealt.isFailed =
      dealt.length + extraResults dealt := by
  obtain ⟨hencodes, hskips, hfails⟩ := countP_results hdealt
  rw [← hencodes, ← hskips, ← hfails, length_eq_countP_add,
    length_results_eq_add_extraResults hdealt]

end Outcomes

namespace Runner

variable {β : Type} {B : Backend β} {early : Prop} {r : Runner β} {config : Config} {backend : β}
  {schedule : List Mover} {result : Except PipelineError Report}

/-- No frame of a workload is malformed. -/
theorem countP_isMalformed_frames (r : Runner β) (indices : List Nat) :
    (indices.map r.frameCommand).countP Command.isMalformed = 0 := by
  rw [List.countP_eq_zero]
  intro c hc
  obtain ⟨i, -, rfl⟩ := List.mem_map.mp hc
  rw [Command.isMalformed, frameCommand, resolve_syntheticFrame]
  exact Bool.false_ne_true

/-- When a runner is done, everything it submitted was dealt with and received. -/
theorem Reached.settled_of_done (h : Reached B early (new config backend) schedule r)
    (hB : B.NeverCrashes backend) (hp : r.place = .done result) :
    Settled ((System.new config.pipeline backend).moves B schedule) ∧
      r.system.worker = .gone false := by
  have hsystem := h.system_eq
  have haccounts := h.accounts hB
  have hsound := h.isSound hB
  have hat := (h.keeps hB).at_place
  rw [hp] at hat
  obtain ⟨hcloses, hready, hout, -⟩ := hat
  have hgone : r.system.worker = .gone false := by
    have hisGone := (hcloses.isOver hsound.lawful hready).isGone
    have hcrash := hsound.ne_crashed
    cases hw : r.system.worker with
    | gone crashed =>
      cases crashed with
      | true => exact absurd hw hcrash
      | false => rfl
    | _ =>
      rw [hw] at hisGone
      cases hisGone
  refine ⟨?_, hgone⟩
  apply settled_of_gone
  · rw [← hsystem]
    exact haccounts.receiver_eq
  · rw [← hsystem]
    exact hout
  · rw [← hsystem]
    exact hgone
  · rw [← List.length_map Prod.snd, haccounts.submitted_eq, List.length_map, List.length_range,
      counted_of_ne (by simp [hp])]
    exact haccounts.complete (by rw [hp]; rfl)

/-- When a runner is done, the commands that were dealt with are the frames it submitted, in order,
and both its tally and the totals of its pipeline count them. -/
theorem Reached.dealt_of_done (h : Reached B early (new config backend) schedule r)
    (hB : B.NeverCrashes backend) (hp : r.place = .done result) :
    ∃ dealt : List (Dealt β), (∀ d ∈ dealt, d.IsBy B config.pipeline) ∧
      dealt.map Dealt.command = (List.range r.submitted.toNat).map r.frameCommand ∧
      r.tally.CountsOutcomes dealt ∧ r.system.stats.CountsOutcomes dealt := by
  have hsystem := h.system_eq
  have hcounts := (h.accounts hB).counts
  have hframes := (h.accounts hB).submitted_eq
  obtain ⟨hsettled, hgone⟩ := h.settled_of_done hB hp
  have hisBy := (traced_run (B := B) (account_new config.pipeline backend).1 schedule).isBy
  have hbetween : ((System.new config.pipeline backend).run B schedule).worker.isBetween =
      true := by
    rw [← hsystem, hgone]
    rfl
  rw [counted_of_ne (by simp [hp])] at hframes
  have hstats := hsettled.countsOutcomes hbetween (by rw [hframes, countP_isMalformed_frames])
  rw [← hsettled.dealt_eq, List.map_map] at hframes
  rw [hsettled.received_eq] at hcounts
  have hlength := congrArg List.length hframes
  rw [List.length_map, List.length_map, List.length_range] at hlength
  exact ⟨_, hisBy, hframes, hcounts.countsOutcomes hisBy (hlength ▸ r.submitted.toNat_lt),
    hsystem ▸ hstats⟩

end Runner

end Probe

end FrameEncoder
