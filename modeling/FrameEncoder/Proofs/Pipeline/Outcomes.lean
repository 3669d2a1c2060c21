import FrameEncoder.Proofs.Pipeline.Reinitialisation
import FrameEncoder.Proofs.Pipeline.Settlement
import FrameEncoder.Proofs.Pipeline.Splitting
import Mathlib.Algebra.GroupWithZero.Nat

/-!
# What commands come to

A command that was dealt with is encoded, skipped or failed, and nothing else. A command that was
skipped or failed has one result. An encoded command has a result for each block its output was
split into, so that commands may have more results than there are commands, by any number.
-/

namespace FrameEncoder

/-- Every result is encoded, skipped or failed, and of one kind only. -/
theorem length_eq_countP_add (results : List EncodeResult) :
    results.countP EncodeResult.isEncoded + results.countP EncodeResult.isSkipped +
      results.countP EncodeResult.isFailed = results.length := by
  induction results with
  | nil => rfl
  | cons r results ih =>
    simp only [List.countP_cons, List.length_cons]
    have hone : (if r.isEncoded then 1 else 0) + (if r.isSkipped then 1 else 0) +
        (if r.isFailed then 1 else 0) = 1 := by
      unfold EncodeResult.isEncoded EncodeResult.isSkipped EncodeResult.isFailed
      cases r.status <;> simp
    omega

/-- Whether a command was skipped. -/
def Dealt.isSkipped {β : Type} (d : Dealt β) : Bool := d.results.any EncodeResult.isSkipped

/-- Whether a command failed. -/
def Dealt.isFailed {β : Type} (d : Dealt β) : Bool := d.results.any EncodeResult.isFailed

variable {β : Type} {B : Backend β} {config : PipelineConfig}

/-- A command that was dealt with has a result for each block of its output, or one without
output. -/
theorem Dealt.IsBy.outcome {d : Dealt β} (h : d.IsBy B config) :
    ((∀ r ∈ d.results, r.status = .encoded) ∧
        ∃ length, d.results.length = chunkCount config.outputChunkBytes length) ∨
      ∃ r, d.results = [r] ∧ r.status ≠ .encoded := by
  obtain ⟨dest, heffects, -⟩ := h
  rcases processCommand_cases heffects with ⟨error, -, hrefused, -⟩ | ⟨u, e, r, -, hreply, -⟩
  · refine .inr ⟨_, (congrArg sentBy hrefused).trans (sentBy_publish _), ?_⟩
    simp [emptyResult, Envelope.result]
  · unfold effectsOfReply at hreply
    split at hreply
    · next outcome =>
      refine .inl ?_
      rw [Dealt.results, ← Option.some.inj hreply, sentBy_counted]
      constructor
      · intro q hq
        obtain ⟨i, hi, rfl⟩ := List.mem_mapIdx.mp hq
        rfl
      · exact ⟨_, length_codedResults ..⟩
    · refine .inr ⟨_, (congrArg sentBy (Option.some.inj hreply).symm).trans (sentBy_publish _), ?_⟩
      simp [emptyResult, Envelope.result]
    · refine .inr ⟨_, (congrArg sentBy (Option.some.inj hreply).symm).trans (sentBy_publish _), ?_⟩
      simp [emptyResult, Envelope.result]
    · cases hreply

/-- The results of a command are counted once under its outcome, but for those of coded output. -/
theorem Dealt.IsBy.counts {d : Dealt β} (h : d.IsBy B config) :
    d.results.countP EncodeResult.isEncoded = (if d.isEncoded then d.results.length else 0) ∧
      d.results.countP EncodeResult.isSkipped = (if d.isSkipped then 1 else 0) ∧
      d.results.countP EncodeResult.isFailed = (if d.isFailed then 1 else 0) := by
  unfold Dealt.isEncoded Dealt.isSkipped Dealt.isFailed
  rcases h.outcome with ⟨hencoded, -⟩ | ⟨r, hr, -⟩
  · have hall : ∀ r ∈ d.results, r.isEncoded = true ∧ r.isSkipped = false ∧
        r.isFailed = false := by
      intro r hr
      unfold EncodeResult.isEncoded EncodeResult.isSkipped EncodeResult.isFailed
      simp [hencoded r hr]
    have hskipped : d.results.any EncodeResult.isSkipped = false :=
      List.any_eq_false.mpr fun r hr => by simp [hall r hr]
    have hfailed : d.results.any EncodeResult.isFailed = false :=
      List.any_eq_false.mpr fun r hr => by simp [hall r hr]
    refine ⟨?_, ?_, ?_⟩
    · rw [if_pos (List.all_eq_true.mpr fun r hr => (hall r hr).1)]
      exact List.countP_eq_length.mpr fun r hr => (hall r hr).1
    · rw [hskipped]
      exact List.countP_eq_zero.mpr fun r hr => by simp [hall r hr]
    · rw [hfailed]
      exact List.countP_eq_zero.mpr fun r hr => by simp [hall r hr]
  · simp [hr, List.countP_singleton]

/-- A command with more than one result was encoded, and its output was split by a limit. -/
theorem Dealt.IsBy.split_of_ne {d : Dealt β} (h : d.IsBy B config) (hmany : d.results.length ≠ 1) :
    d.isEncoded = true ∧ ∃ n length, config.outputChunkBytes = some n ∧ 0 < n ∧ n < length ∧
      d.results.length = chunkCount config.outputChunkBytes length := by
  rcases h.outcome with ⟨hencoded, length, hlength⟩ | ⟨r, hr, -⟩
  · refine ⟨List.all_eq_true.mpr fun r hr => by simp [EncodeResult.isEncoded, hencoded r hr], ?_⟩
    rcases chunkCount_cases config.outputChunkBytes length with hone | ⟨n, hlimit, hpos, hlt⟩
    · exact absurd (hlength.trans hone) hmany
    · exact ⟨n, length, hlimit, hpos, hlt, hlength⟩
  · exact absurd (congrArg List.length hr) hmany

/-- Every command is encoded, skipped or failed, and of one kind only. -/
theorem Dealt.IsBy.kind {d : Dealt β} (h : d.IsBy B config) :
    (if d.isEncoded then 1 else 0) + (if d.isSkipped then 1 else 0) +
      (if d.isFailed then 1 else 0) = 1 := by
  have hsum := length_eq_countP_add d.results
  rw [h.counts.1, h.counts.2.1, h.counts.2.2] at hsum
  by_cases hencoded : d.isEncoded = true
  · rw [if_pos hencoded] at hsum ⊢
    omega
  · have hone : d.results.length = 1 :=
      by_contra fun hmany => hencoded (h.split_of_ne hmany).1
    rw [if_neg hencoded] at hsum ⊢
    omega

/-- Ones for what has a property sum up to its count. -/
theorem sum_map_ite_eq_countP {α : Type} (p : α → Bool) (xs : List α) :
    (xs.map fun x => if p x then 1 else 0).sum = xs.countP p := by
  induction xs with
  | nil => rfl
  | cons x xs ih => rw [List.map_cons, List.sum_cons, List.countP_cons, ih, Nat.add_comm]

/-- The results of commands beyond the first of each. -/
def extraResults (dealt : List (Dealt β)) : Nat :=
  (dealt.map fun d => d.results.length - 1).sum

section Dealt

variable {dealt : List (Dealt β)} (hdealt : ∀ d ∈ dealt, d.IsBy B config)

include hdealt

/-- Commands are encoded, skipped or failed, and each of them of one kind only. -/
theorem length_eq_countP_kinds : dealt.countP Dealt.isEncoded + dealt.countP Dealt.isSkipped +
    dealt.countP Dealt.isFailed = dealt.length := by
  induction dealt with
  | nil => rfl
  | cons d dealt ih =>
    have hkind := (hdealt d List.mem_cons_self).kind
    have hrest := ih fun e he => hdealt e (List.mem_cons_of_mem d he)
    simp only [List.countP_cons, List.length_cons]
    omega

/-- The results of commands by their kind: one for each command that was skipped or failed, and all
those of the others. -/
theorem countP_results :
    (dealt.map Dealt.results).flatten.countP EncodeResult.isEncoded =
        (dealt.map fun d => if d.isEncoded then d.results.length else 0).sum ∧
      (dealt.map Dealt.results).flatten.countP EncodeResult.isSkipped =
        dealt.countP Dealt.isSkipped ∧
      (dealt.map Dealt.results).flatten.countP EncodeResult.isFailed =
        dealt.countP Dealt.isFailed := by
  simp only [List.countP_flatten, List.map_map, ← sum_map_ite_eq_countP Dealt.isSkipped,
    ← sum_map_ite_eq_countP Dealt.isFailed]
  refine ⟨?_, ?_, ?_⟩ <;> refine congrArg List.sum (List.map_congr_left fun d hd => ?_)
  · exact (hdealt d hd).counts.1
  · exact (hdealt d hd).counts.2.1
  · exact (hdealt d hd).counts.2.2

/-- Every command has a result, so there are as many results as commands and extra results. -/
theorem length_results_eq_add_extraResults :
    (dealt.map Dealt.results).flatten.length = dealt.length + extraResults dealt := by
  induction dealt with
  | nil => rfl
  | cons d dealt ih =>
    have hpos := List.length_pos_of_ne_nil (hdealt d List.mem_cons_self).isGroup.nonempty
    have hrest := ih fun e he => hdealt e (List.mem_cons_of_mem d he)
    rw [extraResults] at hrest ⊢
    simp only [List.map_cons, List.flatten_cons, List.length_append, List.length_cons,
      List.sum_cons]
    omega

/-- There is no extra result exactly if each command has one result. -/
theorem extraResults_eq_zero_iff :
    extraResults dealt = 0 ↔ ∀ d ∈ dealt, d.results.length = 1 := by
  rw [extraResults, List.sum_eq_zero_iff_forall_eq_nat, List.forall_mem_map]
  refine forall₂_congr fun d hd => ?_
  have hpos := List.length_pos_of_ne_nil (hdealt d hd).isGroup.nonempty
  omega

end Dealt

/-- How the totals of a pipeline count commands that were dealt with. -/
structure Stats.CountsOutcomes {β : Type} (st : Stats) (dealt : List (Dealt β)) : Prop where
  commands_eq : st.commands = dealt.length
  results_eq : st.results = dealt.length + extraResults dealt
  skipped_eq : st.skipped = dealt.countP Dealt.isSkipped
  failed_eq : st.failed = dealt.countP Dealt.isFailed

/-- In a settled schedule without malformed commands the totals count the commands dealt with. -/
theorem Settled.countsOutcomes {backend : β} {schedule : List Mover} :
    let start := System.new config backend
    let history := start.moves B schedule
    let s := start.run B schedule
    Settled history → s.worker.isBetween = true →
      ((history.flatMap Move.submitted).map Prod.snd).countP Command.isMalformed = 0 →
        s.stats.CountsOutcomes (history.flatMap Move.dealt) := by
  intro start history s h hbetween hwellFormed
  have hisBy := (traced_run (B := B) (account_new config backend).1 schedule).isBy
  obtain ⟨hcommands, hresults, hskipped, hfailed⟩ := h.totals_eq hbetween
  obtain ⟨-, hskips, hfails⟩ := countP_results hisBy
  rw [hwellFormed, Nat.add_zero] at hfailed
  rw [← h.dealt_eq, List.length_map] at hcommands
  rw [h.received_eq] at hresults hskipped hfailed
  exact ⟨hcommands, hresults.trans (length_results_eq_add_extraResults hisBy),
    hskipped.trans hskips, hfailed.trans hfails⟩

end FrameEncoder
