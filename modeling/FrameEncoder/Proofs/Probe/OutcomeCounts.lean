import FrameEncoder.Proofs.Probe.Reports
import Mathlib

/-!
# Outcomes are counted for each result

The report of a workload counts a frame as completed by its last result, but an outcome for every
result. A frame that was skipped or failed has one result, so its outcome is counted once. An
encoded frame is counted once for every block its output was split into. So the outcomes make up the
completed frames exactly if no output was split, unless there are so many blocks that the counter of
encoded results wraps around and comes back to the number of encoded frames.
-/

namespace FrameEncoder.Probe

/-- Whether the outcomes a tally counts make up the commands it counts as completed. -/
def Tally.AddsUp (t : Tally) : Prop :=
  t.encoded.toNat + t.skipped.toNat + t.failed.toNat = t.completed.toNat

section Outcomes

variable {β : Type} {B : Backend β} {config : PipelineConfig} {t : Tally} {dealt : List (Dealt β)}
  (hdealt : ∀ d ∈ dealt, d.IsBy B config)

include hdealt

/-- The outcomes make up the completed commands exactly if the results beyond the first of each are
a multiple of what a counter can hold. -/
theorem Tally.CountsOutcomes.addsUp_iff (h : t.CountsOutcomes dealt) :
    t.AddsUp ↔ 2 ^ 32 ∣ extraResults dealt := by
  have hsum := sum_outcomes_eq hdealt
  have hkinds := length_eq_countP_kinds hdealt
  have hlt : dealt.length < 2 ^ 32 := h.completed_eq ▸ t.completed.toNat_lt
  rw [AddsUp, h.encoded_eq, h.skipped_eq, h.failed_eq, h.completed_eq, UInt32.toNat_ofNat']
  omega

/-- If a counter can hold the results beyond the first of each command, the outcomes make up the
completed commands exactly if each command has one result. -/
theorem Tally.CountsOutcomes.addsUp_iff_of_lt (h : t.CountsOutcomes dealt)
    (hlt : extraResults dealt < 2 ^ 32) :
    t.AddsUp ↔ ∀ d ∈ dealt, d.results.length = 1 := by
  have hnone : 2 ^ 32 ∣ extraResults dealt ↔ extraResults dealt = 0 :=
    ⟨fun hdvd => Nat.eq_zero_of_dvd_of_lt hdvd hlt, fun hzero => hzero ▸ Nat.dvd_zero _⟩
  rw [h.addsUp_iff hdealt, hnone, extraResults_eq_zero_iff hdealt]

end Outcomes

namespace Runner

/-- The outcomes in the report of a workload, stopped early or not, are those of the commands that
were dealt with: all frames that were submitted, in order. They make up the completed frames exactly
if each frame has one result, as long as a counter can hold the results beyond the first of each
frame; the exact condition is that those are a multiple of `2 ^ 32`. A frame with more results than
one was encoded, and its output was split by a limit. -/
theorem countsOutcomes_run {β : Type} {B : Backend β} {backend : β}
    (hB : B.NeverCrashes backend) (config : Config) :
    let start := new config backend
    let limit := config.pipeline.outputChunkBytes
    ∀ r report, Relation.ReflTransGen (StoppableStep B) start r → r.place = .done (.ok report) →
      ∃ dealt : List (Dealt β), (∀ d ∈ dealt, d.IsBy B config.pipeline) ∧
        dealt.map Dealt.command = (List.range report.submitted.toNat).map start.frameCommand ∧
        report.tally.CountsOutcomes dealt ∧
        report.stats.results = dealt.length + extraResults dealt ∧
        (report.tally.AddsUp ↔ 2 ^ 32 ∣ extraResults dealt) ∧
        (extraResults dealt < 2 ^ 32 →
          (report.tally.AddsUp ↔ ∀ d ∈ dealt, d.results.length = 1)) ∧
        ∀ d ∈ dealt, d.results.length ≠ 1 → d.isEncoded = true ∧
          ∃ n length, limit = some n ∧ 0 < n ∧ n < length ∧
            d.results.length = chunkCount limit length := by
  intro start limit r report hreachable hp
  obtain ⟨schedule, h⟩ := exists_reached_of_stoppable hreachable
  have hat := (h.keeps hB).at_place
  rw [hp] at hat
  obtain ⟨-, -, -, hreport⟩ := hat
  obtain rfl : report = r.report := Except.ok.inj hreport
  obtain ⟨dealt, hisBy, hframes, htally, hstats⟩ := h.dealt_of_done hB hp
  have hcommands : r.frameCommand = start.frameCommand := frameCommand_congr h.config_eq
  exact ⟨dealt, hisBy, hcommands ▸ hframes, htally, hstats.results_eq, htally.addsUp_iff hisBy,
    htally.addsUp_iff_of_lt hisBy, fun d hd => (hisBy d hd).split_of_ne⟩

/-- A workload of one frame, with output in blocks of two bytes. -/
def blocksOfTwo : Config :=
  { (default : Config) with
    pipeline := { (default : PipelineConfig) with
      maxCompressedBytes := 8, outputChunkBytes := some 2 }
    workload := { (default : Workload) with frames := 1, width := 2, height := 2 } }

/-- A backend that writes five bytes for every picture. -/
def writingFive : ScriptedBackend := ⟨[], .write (some ⟨#[1, 2, 3, 4, 5]⟩) none .none, []⟩

/-- The report of that workload: one frame completed, and three encoded. -/
def threeOfOne : Report := ⟨1, ⟨1, 3, 0, 0, 0⟩, ⟨1, 3, 5, 0, 0, 0⟩, ⟨1, 1, 1, 0, false, 2⟩⟩

/-- One frame whose output is split into three blocks is counted as encoded three times. -/
theorem countsOutcomes_threeOfOne :
    ScriptedBackend.backend.NeverCrashes writingFive ∧
      (run ScriptedBackend.backend blocksOfTwo writingFive).place = .done (.ok threeOfOne) ∧
      ¬ threeOfOne.tally.AddsUp ∧
      ∃ dealt : List (Dealt ScriptedBackend), threeOfOne.tally.CountsOutcomes dealt ∧
        extraResults dealt = 2 ∧ ¬ ∀ d ∈ dealt, d.results.length = 1 := by
  have hB : ScriptedBackend.backend.NeverCrashes writingFive :=
    ScriptedBackend.neverCrashes nofun nofun
  have hreachable : Relation.ReflTransGen (StoppableStep ScriptedBackend.backend)
      (new blocksOfTwo writingFive) (run ScriptedBackend.backend blocksOfTwo writingFive) :=
    reachable_of_steps (reachable_run blocksOfTwo writingFive)
  have hdone : (run ScriptedBackend.backend blocksOfTwo writingFive).place =
      .done (.ok threeOfOne) := by cbv
  have hmore : ¬ threeOfOne.tally.AddsUp := by
    rw [Tally.AddsUp]
    decide
  obtain ⟨dealt, -, -, hcounts, hresults, -, hiff, -⟩ :=
    countsOutcomes_run hB blocksOfTwo _ threeOfOne hreachable hdone
  have hextra : extraResults dealt = 2 := by
    rw [← hcounts.completed_eq] at hresults
    have hthree : 3 = 1 + extraResults dealt := hresults
    omega
  exact ⟨hB, hdone, hmore, dealt, hcounts, hextra,
    fun hone => hmore ((hiff (by rw [hextra]; decide)).mpr hone)⟩

end Runner

end FrameEncoder.Probe
