import FrameEncoder.Proofs.Pipeline.Settlement
import FrameEncoder.Proofs.Probe.RunnerCounters

/-!
# What a runner has counted

The tally of a runner counts the results it has received, as far as its counters go, the commands
it has submitted are its frames in order, and every frame completed for it is acknowledged before it
does anything else. The pipeline is shut down only when the last results of all frames submitted are
there. When nothing is left to be done or received, the tally has as many completed frames as were
submitted, and the newest frame that was generated, sent and acknowledged is the last one submitted.
-/

namespace FrameEncoder.Probe

/-- What a tally says about the results it counts: how many there are of each kind, but for
multiples of what a counter can hold. -/
structure Tally.Counts (t : Tally) (results : List EncodeResult) : Prop where
  completed_eq : t.completed = UInt32.ofNat (results.countP EncodeResult.last)
  encoded_eq : t.encoded = UInt32.ofNat (results.countP EncodeResult.isEncoded)
  skipped_eq : t.skipped = UInt32.ofNat (results.countP EncodeResult.isSkipped)
  failed_eq : t.failed = UInt32.ofNat (results.countP EncodeResult.isFailed)

/-- A result is counted by its status, and if it is the last of its command. -/
theorem Tally.record_eq (t : Tally) (r : EncodeResult) : t.record r = {
    completed := t.completed + if r.last then 1 else 0
    encoded := t.encoded + if r.isEncoded then 1 else 0
    skipped := t.skipped + if r.isSkipped then 1 else 0
    failed := t.failed + if r.isFailed then 1 else 0
    contextsCreated := t.contextsCreated + if r.encodeFlags.created then 1 else 0 } := by
  have hstatus : r.isEncoded = decide (r.status = .encoded) ∧
      r.isSkipped = decide (r.status = .skipped) ∧
      r.isFailed = !decide (r.status = .encoded ∨ r.status = .skipped) := by
    unfold EncodeResult.isEncoded EncodeResult.isSkipped EncodeResult.isFailed
    cases r.status <;> simp
  rw [hstatus.1, hstatus.2.1, hstatus.2.2, record]
  cases r.status <;> cases r.encodeFlags.created <;> cases r.last <;> simp

/-- A counter goes on by one with each result of its kind. -/
theorem ofNat_countP_concat (p : EncodeResult → Bool) (results : List EncodeResult)
    (r : EncodeResult) : UInt32.ofNat ((results ++ [r]).countP p) =
      UInt32.ofNat (results.countP p) + if p r then 1 else 0 := by
  rw [List.countP_append, List.countP_singleton, UInt32.ofNat_add]
  split <;> rfl

/-- A tally counts one more result. -/
theorem Tally.Counts.record {t : Tally} {results : List EncodeResult} (h : t.Counts results)
    (r : EncodeResult) : (t.record r).Counts (results ++ [r]) := by
  rw [Tally.record_eq]
  constructor <;> rw [ofNat_countP_concat]
  · rw [h.completed_eq]
  · rw [h.encoded_eq]
  · rw [h.skipped_eq]
  · rw [h.failed_eq]

/-- A counter counts no more than there is. -/
theorem toNat_ofNat_le (n : Nat) : (UInt32.ofNat n).toNat ≤ n :=
  UInt32.toNat_ofNat' ▸ Nat.mod_le n (2 ^ 32)

/-- Whether a runner shuts its pipeline down where it is, or has done so. -/
def RunnerPlace.isClosing : RunnerPlace → Bool
  | stopping | draining | done _ => true
  | acknowledging _ next => next.isClosing
  | _ => false

/-- A runner that takes a result goes on as before. -/
theorem RunnerPlace.isClosing_of_onResult? {p next : RunnerPlace} (hp : p.onResult? = some next) :
    next.isClosing = p.isClosing := by
  cases p <;> cases hp <;> rfl

namespace Runner

variable {β : Type} {B : Backend β} {early : Prop} {r t : Runner β} {m : Option Mover}
  {config : Config} {backend : β} {schedule : List Mover}

/-- What a runner has counted, submitted and acknowledged along a history of its pipeline. -/
structure Accounts (history : List (Move β)) (r : Runner β) : Prop where
  /-- Nothing published is lost. -/
  receiver_eq : r.system.receiver = true
  counts : r.tally.Counts (history.flatMap Move.received)
  submitted_eq : (history.flatMap Move.submitted).map Prod.snd =
    (List.range (r.counted Owner.isReady)).map r.frameCommand
  /-- The pipeline is shut down only when no last result is missing. -/
  complete : r.place.isClosing = true →
    r.submitted.toNat ≤ (history.flatMap Move.received).countP EncodeResult.last
  acknowledged : r.config.workload.ackOff = false → ∀ id ∈ history.flatMap Move.completed,
    id ≤ r.system.flow.acknowledged ∨ ∃ next, r.place = .acknowledging id next

/-- A runner that is about to run has nothing to account for. -/
theorem accounts_new (config : Config) (backend : β) : (new config backend).Accounts [] :=
  ⟨rfl, ⟨rfl, rfl, rfl, rfl⟩, rfl, nofun, fun _ _ hid => absurd hid List.not_mem_nil⟩

/-- A runner keeps its end of the queue of results. -/
theorem Moves.receiver_eq (hmove : r.Moves B early m t) :
    t.system.receiver = r.system.receiver := by
  cases m with
  | none => rw [hmove.system_eq_of_none]
  | some m =>
    have hnext := System.moves_of_next hmove.next_eq
    have hm : m ≠ .dropReceiver := by
      rintro rfl
      cases hmove
    exact System.receiver_eq_of_ne hnext hm

/-- A runner counts what it receives. -/
theorem Moves.counts {results : List EncodeResult} (hmove : r.Moves B early m t)
    (h : r.tally.Counts results) :
    t.tally.Counts (results ++ (r.made m t).flatMap Move.received) := by
  cases hmove with
  | @receive next result s hp hs =>
    obtain ⟨rest, hout, -⟩ := System.outbound_of_receive hs
    simp only [made, Option.toList_some, List.map_cons, List.map_nil, List.flatMap_singleton,
      Move.received, hout, List.head?_cons]
    exact h.record result
  | pass ht =>
    rw [made, Option.toList_none, List.map_nil, List.flatMap_nil, List.append_nil]
    cases ht <;> exact h
  | _ =>
    rw [show (made r _ _).flatMap Move.received = [] from rfl, List.append_nil]
    exact h

/-- A runner begins to shut its pipeline down when it has counted the last results of all frames
submitted, and submits none from then on. -/
theorem Moves.isClosing (hmove : r.Moves B early m t) (hat : r.At early r.place)
    (h : t.place.isClosing = true) :
    t.submitted = r.submitted ∧ (r.place.isClosing = true ∨ r.submitted ≤ r.tally.completed) := by
  cases hmove with
  | opening hp => cases h
  | call hc hs =>
    refine ⟨rfl, ?_⟩
    cases hc with
    | stop hp ht => exact .inr ht
    | stopClosed hp hclosed =>
      rw [hp] at hat
      exact absurd (hat.1.closed_eq.symm.trans hclosed) Bool.false_ne_true
    | start | dispatch | dispatchClosed | abandon => cases h
  | @receive next result s hp hs =>
    refine ⟨rfl, .inl ?_⟩
    rw [← RunnerPlace.isClosing_of_onResult? hp]
    rcases place_record { r with system := s } result next with hplace | ⟨id, hplace⟩ <;>
    · rw [hplace] at h
      exact h
  | acknowledge hp =>
    rw [hp]
    exact ⟨rfl, .inl h⟩
  | pass ht =>
    cases ht with
    | stopped hp | finish hp =>
      rw [hp]
      exact ⟨rfl, .inl rfl⟩
    | abandoned hp =>
      rw [hp] at hat
      exact hat.elim
    | _ => cases h
  | owner | worker | halt => exact ⟨rfl, .inl h⟩

/-- The pipeline of a runner is shut down only when no last result is missing. -/
theorem Moves.complete {results : List EncodeResult} (hmove : r.Moves B early m t)
    (hat : r.At early r.place) (hcounts : r.tally.Counts results)
    (h : r.place.isClosing = true → r.submitted.toNat ≤ results.countP EncodeResult.last)
    (hclosing : t.place.isClosing = true) : t.submitted.toNat ≤
      (results ++ (r.made m t).flatMap Move.received).countP EncodeResult.last := by
  obtain ⟨hsubmitted, hbefore | hcounted⟩ := hmove.isClosing hat hclosing
  all_goals rw [hsubmitted, List.countP_append]
  · exact Nat.le_add_right_of_le (h hbefore)
  · refine Nat.le_add_right_of_le (Nat.le_trans (UInt32.le_iff_toNat_le.mp hcounted) ?_)
    rw [hcounts.completed_eq]
    exact toNat_ofNat_le _

/-- The frames of a workload depend on its settings alone. -/
theorem frameCommand_congr (h : t.config = r.config) : t.frameCommand = r.frameCommand := by
  unfold frameCommand
  rw [h]

/-- Only the owner submits commands, by queueing them. -/
theorem submitted_eq_nil {x : Move β}
    (h : x.mover ≠ .owner ∨ ∀ seq c, x.before.owner ≠ .queueing seq c) : x.submitted = [] := by
  unfold Move.submitted
  split
  · next hm ho ha => exact h.elim (absurd hm) fun hne => absurd ho (hne _ _)
  · rfl

/-- A runner submits its frames in order. -/
theorem Keeps.submitted_made (h : r.Keeps early) (hr : r.IsSound)
    (hmove : r.Moves B early m t) :
    (List.range (r.counted Owner.isReady)).map r.frameCommand ++
        ((r.made m t).flatMap Move.submitted).map Prod.snd =
      (List.range (t.counted Owner.isReady)).map r.frameCommand := by
  have hat := h.at_place
  by_cases hm : m = some .owner
  · subst hm
    cases hmove with
    | @owner s hp hs =>
      rw [made, Option.toList_some, List.map_singleton, List.flatMap_singleton]
      by_cases hplace : ∃ i, r.place = .submitting i
      · obtain ⟨i, hplace⟩ := hplace
        rw [hplace] at hat
        obtain ⟨hserving, hi, -, -, hsubmitting⟩ := hat
        cases submitsOn_of_ownerStep hsubmitting hserving hs with
        | number ho => simp [counted, Move.submitted, hplace, ho, Owner.isReady]
        | mark ho => simp [counted, Move.submitted, hplace, ho, Owner.isReady]
        | queue ho =>
          simp [counted, Move.submitted, hplace, ho, hi, Owner.isReady, System.answer,
            List.range_succ]
      · have hne : ∀ i, r.place ≠ .submitting i := fun i hi => hplace ⟨i, hi⟩
        have hnone : Move.submitted ⟨r.system, .owner, s⟩ = [] :=
          submitted_eq_nil (.inr fun seq c => (hat.not_submitting hr.lawful hp hne seq c).2)
        rw [hnone, counted_of_ne hne, counted_of_ne (r := { r with system := s }) hne,
          List.map_nil, List.append_nil]
  · have hnone : (r.made m t).flatMap Move.submitted = [] := by
      cases m with
      | none => rfl
      | some m =>
        rw [made, Option.toList_some, List.map_singleton, List.flatMap_singleton]
        exact submitted_eq_nil (.inl fun howner => hm (congrArg some howner))
    rw [hnone, hmove.counted_eq hat hm (fun _ => rfl) fun _ => rfl, List.map_nil, List.append_nil]

/-- Where a runner acknowledges a frame it does nothing else. -/
theorem Moves.of_acknowledging {id : UInt32} {next : RunnerPlace}
    (hmove : r.Moves B early m t) (hp : r.place = .acknowledging id next) :
    t.place = .acknowledging id next ∨
      t.system.flow = r.system.flow.frameAcknowledged id := by
  cases hmove with
  | acknowledge hp' =>
    cases hp.symm.trans hp'
    exact .inr rfl
  | worker hs => exact .inl hp
  | halt hearly => exact .inl hp
  | pass ht => cases ht <;> simp_all
  | call hc hs =>
    cases hc with
    | abandon hp' ho => simp [hp, RunnerPlace.inCall] at hp'
    | _ => simp_all
  | opening hp' => simp [hp] at hp'
  | owner hp' hs => simp [hp, RunnerPlace.inCall] at hp'
  | receive hp' hs => simp [hp, RunnerPlace.onResult?] at hp'

/-- A runner goes on to acknowledge the frame that a result completes. -/
theorem Moves.completed_made (hmove : r.Moves B early m t)
    (hack : r.config.workload.ackOff = false) :
    ∀ id ∈ (r.made m t).flatMap Move.completed, ∃ next, t.place = .acknowledging id next := by
  intro id hid
  cases hmove with
  | @receive next result s hp hs =>
    obtain ⟨rest, hout, -⟩ := System.outbound_of_receive hs
    obtain hcompleted : result.completedFrame = some id := by
      simpa [made, Move.completed, Move.received, hout] using hid
    exact ⟨next, place_record_of_completed hcompleted hack next⟩
  | _ => exact absurd hid List.not_mem_nil

/-- Acknowledgements are not taken back. -/
theorem Moves.acknowledged_le (hmove : r.Moves B early m t) (hr : r.IsSound) :
    r.system.flow.acknowledged ≤ t.system.flow.acknowledged := by
  cases m with
  | none =>
    rw [hmove.system_eq_of_none]
    exact UInt32.le_refl _
  | some m =>
    have hnext := System.moves_of_next hmove.next_eq
    exact (isOrdered_move hnext hr.ordered).2.acknowledged_le

/-- Every move of a runner keeps its accounts, as the frames completed for it were sent. -/
theorem Accounts.move {history : List (Move β)} (h : r.Accounts history) (hkeeps : r.Keeps early)
    (hr : r.IsSound) (hsent : ∀ id ∈ history.flatMap Move.completed, id ≤ r.system.flow.sent)
    (hmove : r.Moves B early m t) : t.Accounts (history ++ r.made m t) := by
  have hconfig := hmove.config_eq
  refine ⟨hmove.receiver_eq.trans h.receiver_eq, ?_, ?_, ?_, ?_⟩
  · rw [List.flatMap_append]
    exact hmove.counts h.counts
  · rw [List.flatMap_append, List.map_append, h.submitted_eq, frameCommand_congr hconfig]
    exact hkeeps.submitted_made hr hmove
  · rw [List.flatMap_append]
    exact hmove.complete hkeeps.at_place h.counts h.complete
  · rw [List.flatMap_append, hconfig]
    intro hack id hid
    rcases List.mem_append.mp hid with hid | hid
    · rcases h.acknowledged hack id hid with hle | ⟨next, hp⟩
      · exact .inl (UInt32.le_trans hle (hmove.acknowledged_le hr))
      · rcases hmove.of_acknowledging hp with hplace | hflow
        · exact .inr ⟨next, hplace⟩
        · rw [hflow]
          exact .inl (Flow.le_acknowledged_frameAcknowledged (hsent id hid))
    · exact .inr (hmove.completed_made hack id hid)

/-- Wherever a runner is reached, its accounts are those of its pipeline's history. -/
theorem Reached.accounts (h : Reached B early (new config backend) schedule r)
    (hB : B.NeverCrashes backend) :
    r.Accounts ((System.new config.pipeline backend).moves B schedule) := by
  induction h with
  | start => exact accounts_new config backend
  | @move schedule r t m h hm ih =>
    have hsystem := h.system_eq
    rw [System.moves_append, ← hsystem, hm.system_eq.2]
    refine ih.move (h.keeps hB) (h.isSound hB) ?_ hm
    rw [hsystem]
    exact completed_le_sent B config.pipeline backend schedule

/-- What holds of a runner when everything it submitted has come back to it: every command counts as
completed, and the last frame is generated, sent and acknowledged. -/
structure CaughtUp (r : Runner β) : Prop where
  completed_eq : r.tally.completed = r.submitted
  generated_eq : r.system.flow.generated = r.submitted
  sent_eq : r.system.flow.sent = r.system.flow.generated
  acknowledged_eq : r.system.flow.acknowledged = r.system.flow.generated
  inFlight_eq : r.system.flow.inFlight = 0

/-- A runner that has submitted frames has submitted the last one. -/
theorem exists_lastFrame {submitted : List (Nat × Command)} {n : Nat} (hpos : 0 < n)
    (hn : n < UInt32.size)
    (h : submitted.map Prod.snd = (List.range n).map r.frameCommand) :
    ∃ id ∈ framesOf submitted, id.toNat = n := by
  obtain ⟨i, rfl⟩ : ∃ i, n = i + 1 := ⟨n - 1, by omega⟩
  refine ⟨UInt32.ofNat i + 1, ?_, toNat_frameId hn⟩
  have hframes : framesOf submitted = (submitted.map Prod.snd).filterMap Command.frameId := by
    rw [List.filterMap_map]
    rfl
  rw [hframes, h, List.filterMap_map, List.mem_filterMap]
  exact ⟨i, List.self_mem_range_succ, rfl⟩

/-- A runner whose pipeline has dealt with everything is caught up, wherever it is in no submission
and has no frame to acknowledge. -/
theorem Reached.caughtUp (h : Reached B early (new config backend) schedule r)
    (hB : B.NeverCrashes backend)
    (hsettled : Settled ((System.new config.pipeline backend).moves B schedule))
    (hopening : r.place ≠ .opening) (hsubmitting : ∀ i, r.place ≠ .submitting i)
    (hack : ∀ id next, r.place ≠ .acknowledging id next) : r.CaughtUp := by
  have hkeeps := h.keeps hB
  have haccounts := h.accounts hB
  have hordered := (h.isSound hB).ordered
  have hsystem := h.system_eq
  have hgenerated : r.system.flow.generated = r.submitted :=
    UInt32.toNat_inj.mp (hkeeps.generated_eq.trans (counted_of_ne hsubmitting))
  have hsubmitted := haccounts.submitted_eq
  rw [counted_of_ne hsubmitting] at hsubmitted
  have hlast : r.submitted = 0 ∨ r.submitted ∈
      ((System.new config.pipeline backend).moves B schedule).flatMap Move.completed := by
    rcases Nat.eq_zero_or_pos r.submitted.toNat with hzero | hpos
    · exact .inl (UInt32.toNat_inj.mp hzero)
    · rw [hsettled.completed_eq]
      obtain ⟨id, hid, heq⟩ := exists_lastFrame hpos r.submitted.toNat_lt hsubmitted
      exact .inr (UInt32.toNat_inj.mp heq ▸ hid)
  -- The last frame was completed, so it counts as sent, and as acknowledged, by the runner or at
  -- once.
  have hsent : r.system.flow.sent = r.system.flow.generated := by
    refine UInt32.le_antisymm hordered.sent_le ?_
    rw [hgenerated]
    rcases hlast with hzero | hmem
    · exact hzero ▸ UInt32.zero_le
    · rw [hsystem]
      exact completed_le_sent B config.pipeline backend schedule _ hmem
  have hacknowledged : r.system.flow.acknowledged = r.system.flow.sent := by
    cases hoff : r.config.workload.ackOff with
    | true => exact hordered.acknowledged_eq ((hkeeps.suppressed_eq hopening).trans hoff)
    | false =>
      refine UInt32.le_antisymm hordered.acknowledged_le ?_
      rw [hsent, hgenerated]
      rcases hlast with hzero | hmem
      · exact hzero ▸ UInt32.zero_le
      · exact (haccounts.acknowledged hoff _ hmem).elim id fun ⟨next, hp⟩ =>
          absurd hp (hack _ next)
  refine ⟨?_, hgenerated, hsent, hacknowledged.trans hsent, ?_⟩
  · rw [haccounts.counts.completed_eq, hsettled.countP_last, ← List.length_map Prod.snd,
      hsubmitted, List.length_map, List.length_range, UInt32.ofNat_toNat]
  · rw [hordered.inFlight_eq, hacknowledged, UInt32.sub_self, ite_self]

end Runner

end FrameEncoder.Probe
