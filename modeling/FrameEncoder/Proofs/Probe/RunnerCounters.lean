import FrameEncoder.Proofs.Probe.RunnerPlaces

/-!
# What a runner keeps

A runner whose encode thread does not crash has the frames marked as generated that it has taken to
the middle of their submissions, and none else. It has set once and for all whether frames are
acknowledged, and submits frames only if they may be in flight or nobody waits for them.
-/

namespace FrameEncoder

/-- Whether a submission has marked its frame. -/
def Owner.hasMarked : Owner → Bool
  | queueing _ _ | ready _ => true
  | _ => false

/-- Whether the owner is in no call. -/
def Owner.isReady : Owner → Bool
  | ready _ => true
  | _ => false

namespace Probe.Runner

variable {β : Type} {B : Backend β} {early : Prop} {r t : Runner β} {m : Option Mover}

/-- The frames submitted, and the one in submission if the owner has got so far. -/
def counted (f : Owner → Bool) (r : Runner β) : Nat :=
  match r.place with
  | .submitting _ => r.submitted.toNat + (f r.system.owner).toNat
  | _ => r.submitted.toNat

/-- A runner that is in no submission has submitted the frames it counts. -/
theorem counted_of_ne {f : Owner → Bool} (hp : ∀ i, r.place ≠ .submitting i) :
    r.counted f = r.submitted.toNat := by
  unfold counted
  split
  · next hplace => exact absurd hplace (hp _)
  · rfl

/-- A runner that makes a call has begun and is not done. -/
theorem Calls.ne_opening {c : Call} {next : RunnerPlace} (hc : r.Calls c next) :
    r.place ≠ .opening ∧ ∀ report, r.place ≠ .done report := by
  cases hc with
  | abandon hp ho =>
    constructor
    · intro hplace
      rw [hplace] at hp
      cases hp
    · intro report hplace
      rw [hplace] at hp
      cases hp
  | start hp | dispatch hp | dispatchClosed hp | stop hp | stopClosed hp => simp [hp]

/-- Where a runner takes results it is in no submission and not done. -/
theorem ne_of_onResult? {p next : RunnerPlace} (hp : p.onResult? = some next) :
    (p ≠ .opening ∧ (∀ i, p ≠ .submitting i) ∧ ∀ report, p ≠ .done report) ∧
      (next ≠ .opening ∧ (∀ i, next ≠ .submitting i) ∧ ∀ report, next ≠ .done report) := by
  cases p <;> simp_all [RunnerPlace.onResult?] <;> subst hp <;> simp

/-- What is counted up to a point between the first step of a submission and its end is changed by
further steps of the submission only. -/
theorem Moves.counted_eq {f : Owner → Bool} (hmove : r.Moves B early m t)
    (h : r.At early r.place) (hm : m ≠ some .owner) (hnumbering : ∀ c, f (.numbering c) = false)
    (hready : ∀ a, f (.ready a) = true) : t.counted f = r.counted f := by
  cases hmove with
  | opening hp => simp [counted, hp]
  | call hc hs =>
    cases hc with
    | dispatch hp hf =>
      rw [hp] at h
      obtain ⟨⟨hserving, a, ho⟩, -, -⟩ := h
      cases (System.callStep_submit ho hserving.stop_eq _).symm.trans hs
      simp [counted, hp, hnumbering]
    | dispatchClosed hp hclosed =>
      rw [hp] at h
      exact absurd (h.1.closed_eq.symm.trans hclosed) Bool.false_ne_true
    | abandon hp ho => exact absurd ho (h.ne_refused hp _)
    | start hp | stop hp | stopClosed hp => simp [counted, hp]
  | owner hp hs => exact absurd rfl hm
  | @receive next result s hp hs =>
    obtain ⟨⟨-, hsubmitting, -⟩, -, hnext, -⟩ := ne_of_onResult? hp
    rw [counted_of_ne hsubmitting, counted_of_ne fun i => ?_]
    · rfl
    · rcases place_record { r with system := s } result next with hplace | ⟨id, hplace⟩
      · rw [hplace]
        exact hnext i
      · simp [hplace]
  | @acknowledge id next hp =>
    rw [hp] at h
    obtain ⟨p, hnext⟩ := h.1
    obtain ⟨-, -, hsubmitting, -⟩ := ne_of_onResult? hnext
    have hbefore : r.counted f = r.submitted.toNat := counted_of_ne (by simp [hp])
    rw [hbefore]
    exact counted_of_ne (r := { r with
      system := r.system.useFlow (.acknowledged id)
      place := next }) hsubmitting
  | worker hs =>
    simp only [counted, System.owner_eq_of_worker (System.moves_of_workerStep hs)]
  | pass ht =>
    cases ht with
    | submitted hp ho ha =>
      rw [hp] at h
      have hlt := UInt32.lt_iff_toNat_lt.mpr (h.2.1 ▸ h.2.2.1)
      simp [counted, hp, ho, hready, toNat_add_one_of_lt hlt]
    | started hp | next hp | leave hp | throttle hp | lack hp | stopped hp | finish hp
      | abandoned hp => simp [counted, hp]
  | halt hearly => rfl

/-- The id of a frame counts the frames up to it. -/
theorem toNat_frameId {i : Nat} (h : i + 1 < UInt32.size) :
    (UInt32.ofNat i + 1).toNat = i + 1 := by
  rw [UInt32.toNat_add, UInt32.toNat_ofNat', Nat.mod_eq_of_lt (Nat.lt_of_succ_lt h)]
  exact Nat.mod_eq_of_lt h

/-- A frame that is about to be marked counts as generated afterwards. -/
theorem toNat_generated_frameGenerated {i : Nat} (h : i < r.config.workload.frames.toNat)
    {f : Flow} (hf : f.generated.toNat = i) :
    (f.frameGenerated (UInt32.ofNat i + 1)).generated.toNat = i + 1 := by
  have hid := toNat_frameId (Nat.lt_of_le_of_lt h r.config.workload.frames.toNat_lt)
  rw [Flow.generated_frameGenerated, max_eq_ite]
  split
  · exact hid
  · next hle =>
    rw [UInt32.le_iff_toNat_le] at hle
    omega

/-- What a runner keeps wherever it goes. -/
structure Keeps (early : Prop) (r : Runner β) : Prop where
  at_place : r.At early r.place
  running_or : (∀ report, r.place ≠ .done report) → r.running = true ∨ early
  suppressed_eq : r.place ≠ .opening → r.system.flow.suppressed = r.config.workload.ackOff
  generated_eq : r.system.flow.generated.toNat = r.counted Owner.hasMarked
  /-- Frames are submitted only if they may be. -/
  allows : 0 < r.submitted → r.config.Allows

/-- A runner that is about to run. -/
theorem keeps_new (config : Config) (backend : β) : (new config backend).Keeps early where
  at_place := ⟨rfl, rfl, rfl⟩
  running_or _ := .inl rfl
  suppressed_eq h := absurd rfl h
  generated_eq := rfl
  allows h := absurd h (UInt32.lt_irrefl 0)

/-- A runner dispatches a frame only if frames may be in flight. -/
theorem Keeps.allows_of_mayDispatch (h : r.Keeps early) (hr : r.IsSound)
    (hplace : r.place ≠ .opening) (hf : r.system.flow.mayDispatch = true) : r.config.Allows := by
  rw [Flow.mayDispatch, h.suppressed_eq hplace, hr.max_eq, Bool.or_eq_true,
    decide_eq_true_iff] at hf
  refine hf.imp_right fun hlt => ?_
  rw [UInt32.lt_iff_toNat_lt] at hlt ⊢
  exact Nat.lt_of_le_of_lt (Nat.zero_le _) hlt

/-- A runner is stopped early from outside, or clears its running flag when it is done. -/
theorem Keeps.running_move (h : r.Keeps early) (hmove : r.Moves B early m t) :
    (∀ report, t.place ≠ .done report) → t.running = true ∨ early := by
  cases hmove with
  | opening hp => exact fun _ => h.running_or (by simp [hp])
  | call hc hs => exact fun _ => h.running_or hc.ne_opening.2
  | owner hp hs => exact h.running_or
  | receive hp hs => exact fun _ => h.running_or (ne_of_onResult? hp).1.2.2
  | acknowledge hp => exact fun _ => h.running_or (by simp [hp])
  | worker hs => exact h.running_or
  | pass ht =>
    cases ht with
    | finish hp hs => exact fun hne => absurd rfl (hne _)
    | started hp | next hp | leave hp | throttle hp | submitted hp | lack hp | stopped hp
      | abandoned hp => exact fun _ => h.running_or (by simp [hp])
  | halt hearly => exact fun _ => .inr hearly

/-- Whether frames are acknowledged is set at the beginning. -/
theorem Keeps.suppressed_move (h : r.Keeps early) (hr : r.IsSound)
    (hmove : r.Moves B early m t) :
    t.place ≠ .opening → t.system.flow.suppressed = t.config.workload.ackOff := by
  cases hmove with
  | opening hp => exact fun _ => rfl
  | call hc hs =>
    intro _
    exact (congrArg Flow.suppressed (System.flow_callStep hs)).trans
      (h.suppressed_eq hc.ne_opening.1)
  | owner hp hs =>
    intro hplace
    refine Eq.trans ?_ (h.suppressed_eq hplace)
    rcases System.flow_owner (System.moves_of_ownerStep hs) with hflow | ⟨seq, c, id, -, hflow⟩
    · exact congrArg _ hflow
    · exact (congrArg _ hflow).trans (r.system.flow.frameGenerated_keeps id).2.2
  | receive hp hs =>
    obtain ⟨rest, -, rfl⟩ := System.outbound_of_receive hs
    exact fun _ => h.suppressed_eq (ne_of_onResult? hp).1.1
  | @acknowledge id next hp =>
    intro _
    exact (r.system.flow.frameAcknowledged_keeps id).2.2.trans (h.suppressed_eq (by simp [hp]))
  | worker hs =>
    intro hplace
    refine Eq.trans ?_ (h.suppressed_eq hplace)
    rcases System.flow_worker (System.moves_of_workerStep hs) with hflow | ⟨id, hflow⟩
    · exact congrArg _ hflow
    · exact (congrArg _ hflow).trans (Flow.frameSent_holds hr.ordered.toIsConsistent id).2.1
  | pass ht =>
    cases ht with
    | started hp | next hp | leave hp | throttle hp | submitted hp | lack hp | stopped hp
      | finish hp | abandoned hp => exact fun _ => h.suppressed_eq (by simp [hp])
  | halt hearly => exact h.suppressed_eq

/-- Only the owner's further steps within a call mark frames as generated. -/
theorem Moves.generated_eq (hmove : r.Moves B early m t) (hr : r.IsSound)
    (hm : m ≠ some .owner) : t.system.flow.generated = r.system.flow.generated := by
  cases hmove with
  | opening hp => rfl
  | call hc hs => exact congrArg Flow.generated (System.flow_callStep hs)
  | owner hp hs => exact absurd rfl hm
  | receive hp hs =>
    obtain ⟨rest, -, rfl⟩ := System.outbound_of_receive hs
    rfl
  | @acknowledge id next hp => exact (r.system.flow.frameAcknowledged_keeps id).1
  | worker hs =>
    rcases System.flow_worker (System.moves_of_workerStep hs) with hflow | ⟨id, hflow⟩
    · exact congrArg _ hflow
    · exact (congrArg _ hflow).trans (Flow.frameSent_holds hr.ordered.toIsConsistent id).1
  | pass ht => cases ht <;> rfl
  | halt hearly => rfl

/-- The generated frames are those whose submissions have marked them. -/
theorem Keeps.generated_move (h : r.Keeps early) (hr : r.IsSound)
    (hmove : r.Moves B early m t) :
    t.system.flow.generated.toNat = t.counted Owner.hasMarked := by
  have hat := h.at_place
  have hgenerated := h.generated_eq
  by_cases hm : m = some .owner
  · subst hm
    cases hmove with
    | @owner s hp hs =>
      by_cases hplace : ∃ i, r.place = .submitting i
      · obtain ⟨i, hplace⟩ := hplace
        rw [hplace] at hat
        obtain ⟨hserving, hi, hlt, -, hsubmitting⟩ := hat
        cases submitsOn_of_ownerStep hsubmitting hserving hs with
        | number ho =>
          simp only [counted, hplace, ho, Owner.hasMarked] at hgenerated ⊢
          exact hgenerated
        | mark ho =>
          simp only [counted, hplace, ho, Owner.hasMarked, hi] at hgenerated ⊢
          exact toNat_generated_frameGenerated hlt hgenerated
        | queue ho =>
          simp only [counted, hplace, ho, Owner.hasMarked] at hgenerated ⊢
          exact hgenerated
      · have hne : ∀ i, r.place ≠ .submitting i := fun i hi => hplace ⟨i, hi⟩
        rw [counted_of_ne (r := { r with system := s }) hne]
        rw [counted_of_ne hne] at hgenerated
        rcases System.flow_owner (System.moves_of_ownerStep hs) with hflow | ⟨seq, c, id, ho, -⟩
        · show s.flow.generated.toNat = r.submitted.toNat
          rw [hflow]
          exact hgenerated
        · exact absurd ho (hat.not_submitting hr.lawful hp hne seq c).1
  · rw [hmove.generated_eq hr hm, hgenerated]
    exact (hmove.counted_eq hat hm (fun _ => rfl) fun _ => rfl).symm

/-- A runner submits frames only if they may be. -/
theorem Keeps.allows_move (h : r.Keeps early) (hmove : r.Moves B early m t) :
    0 < t.submitted → t.config.Allows := by
  cases hmove with
  | pass ht =>
    cases ht with
    | submitted hp ho ha =>
      have hat := h.at_place
      rw [hp] at hat
      exact fun _ => hat.2.2.2.1
    | _ => exact h.allows
  | _ => exact h.allows

/-- Every move keeps what a runner keeps. -/
theorem Keeps.move (h : r.Keeps early) (hr : r.IsSound) (ht : t.IsSound)
    (hmove : r.Moves B early m t) : t.Keeps early where
  at_place := h.at_place.move hr ht h.running_or
    (fun i hp => h.allows_of_mayDispatch hr (by simp [hp])) hmove
  running_or := h.running_move hmove
  suppressed_eq := h.suppressed_move hr hmove
  generated_eq := h.generated_move hr hmove
  allows := h.allows_move hmove

variable {config : Config} {backend : β} {schedule : List Mover}

/-- The pipeline of a runner follows the schedule along which the runner is reached. -/
theorem Reached.system_eq (h : Reached B early (new config backend) schedule r) :
    r.system = (System.new config.pipeline backend).run B schedule := by
  induction h with
  | start => rfl
  | move _ hm ih => rw [System.run_append, ← ih, hm.system_eq.1]

/-- The settings of a runner stay the same. -/
theorem Moves.config_eq (hmove : r.Moves B early m t) : t.config = r.config := by
  cases hmove with
  | pass ht => cases ht <;> rfl
  | _ => rfl

/-- Wherever a runner is reached, its settings are those it began with. -/
theorem Reached.config_eq (h : Reached B early (new config backend) schedule r) :
    r.config = config := by
  induction h with
  | start => rfl
  | move _ hm ih => exact hm.config_eq.trans ih

/-- The pipeline of a runner is sound if its backend never crashes. -/
theorem Reached.isSound (h : Reached B early (new config backend) schedule r)
    (hB : B.NeverCrashes backend) : r.IsSound := by
  have hsystem := h.system_eq
  have hconfig := h.config_eq
  obtain ⟨hordered, hmax⟩ := isOrdered_run B config.pipeline backend schedule
  refine ⟨?_, ?_, ?_, ?_⟩ <;> rw [hsystem]
  · exact System.isLawful_run (System.isLawful_new _ _) schedule
  · exact System.worker_run_ne_crashed hB _ schedule
  · exact hordered
  · rw [hconfig]
    exact hmax

/-- Wherever a runner is reached, it keeps what it keeps if its backend never crashes. -/
theorem Reached.keeps (h : Reached B early (new config backend) schedule r)
    (hB : B.NeverCrashes backend) : r.Keeps early := by
  induction h with
  | start => exact keeps_new config backend
  | move h hm ih => exact ih.move (h.isSound hB) ((h.move hm).isSound hB) hm

end Probe.Runner

end FrameEncoder
