import FrameEncoder.Pipeline.Flow
import Mathlib.Data.List.Induction

/-!
# Uses of the frame counters

Whatever the frame counters are used for, with frame ids that repeat, go back or were never
generated, they stay in order: nothing is acknowledged that was not sent, and nothing sent that was
not generated. The frames in flight are kept beside the counters and counted anew only by some uses,
so the invariant holds of what such a use counts as well as of what it leaves.
-/

namespace FrameEncoder

namespace Flow

/-- Counters whose frames in flight are those sent and not acknowledged. -/
structure IsConsistent (f : Flow) : Prop where
  acknowledged_le : f.acknowledged ≤ f.sent
  inFlight_eq : f.inFlight = if f.suppressed then 0 else f.sent - f.acknowledged

/-- New counters are consistent. -/
theorem isConsistent_new (maxInFlight : UInt32) : (new maxInFlight).IsConsistent :=
  ⟨UInt32.le_refl 0, (UInt32.sub_self 0).symm⟩

/-- Frames in flight that acknowledgements count are those between the last acknowledged and the
last sent. -/
theorem IsConsistent.inFlight_add {f : Flow} (hf : f.IsConsistent) (hs : f.suppressed = false) :
    f.inFlight.toNat + f.acknowledged.toNat = f.sent.toNat := by
  have hle := UInt32.le_iff_toNat_le.mp hf.acknowledged_le
  rw [hf.inFlight_eq, hs, if_neg Bool.false_ne_true,
    UInt32.toNat_sub_of_le _ _ hf.acknowledged_le]
  omega

/-- The counters whose frames in flight a use counts anew, if it does: those it leaves, but for the
old number of frames in flight. -/
def recounted? (f : Flow) : FlowUse → Option Flow
  | .generated _ => none
  | .sent id =>
    let id := min id f.generated
    if f.sent < id then
      some { f with sent := id, acknowledged := if f.suppressed then id else f.acknowledged }
    else none
  | .acknowledged id =>
    let id := min id f.sent
    if f.acknowledged < id then some { f with acknowledged := id } else none
  | .suppress suppressed =>
    some { f with suppressed, acknowledged := if suppressed then f.sent else f.acknowledged }

/-- A use counts the frames in flight anew, or touches no counter but that of generated frames. -/
theorem use_eq (f : Flow) (u : FlowUse) : f.use u = match f.recounted? u with
    | some g => g.recompute
    | none => { f with generated := (f.use u).generated } := by
  cases u with
  | generated id =>
    simp only [use, frameGenerated, recounted?]
    split <;> rfl
  | sent id =>
    simp only [use, frameSent, recounted?]
    split <;> rfl
  | acknowledged id =>
    simp only [use, frameAcknowledged, recounted?]
    split <;> rfl
  | suppress suppressed => rfl

/-- Whether no counter of frames goes back and the ceiling stays. -/
structure Precedes (f g : Flow) : Prop where
  generated_le : f.generated ≤ g.generated
  sent_le : f.sent ≤ g.sent
  acknowledged_le : f.acknowledged ≤ g.acknowledged
  maxInFlight_eq : g.maxInFlight = f.maxInFlight

variable {f g : Flow} {u : FlowUse}

/-- The earlier of two frames. -/
theorem min_eq_ite (a b : UInt32) : min a b = if a ≤ b then a else b := rfl

/-- Of what a use counts anew, no more is acknowledged than sent, and nothing has gone back. -/
theorem le_of_recounted (hf : f.acknowledged ≤ f.sent) (hg : f.recounted? u = some g) :
    g.acknowledged ≤ g.sent ∧ f.Precedes g := by
  cases u with
  | generated id => cases hg
  | sent id => grind [recounted?, Precedes, min_eq_ite]
  | acknowledged id => grind [recounted?, Precedes, min_eq_ite]
  | suppress suppressed => grind [recounted?, Precedes]

/-- What is generated does not go back. -/
theorem generated_le_use (f : Flow) (u : FlowUse) : f.generated ≤ (f.use u).generated := by
  cases u with
  | generated id => grind [use, frameGenerated]
  | sent id => grind [use, frameSent, recompute]
  | acknowledged id => grind [use, frameAcknowledged, recompute]
  | suppress suppressed => exact UInt32.le_refl _

/-- Consistent counters stay so, whoever uses them for what, and no frame is taken back. -/
theorem IsConsistent.use (hf : f.IsConsistent) (u : FlowUse) :
    (f.use u).IsConsistent ∧ f.Precedes (f.use u) := by
  have hgenerated := generated_le_use f u
  rw [use_eq]
  cases hg : f.recounted? u with
  | none =>
    exact ⟨⟨hf.acknowledged_le, hf.inFlight_eq⟩, hgenerated, UInt32.le_refl _, UInt32.le_refl _, rfl⟩
  | some g =>
    obtain ⟨hle, hprecedes⟩ := le_of_recounted hf.acknowledged_le hg
    exact ⟨⟨hle, rfl⟩, hprecedes.generated_le, hprecedes.sent_le, hprecedes.acknowledged_le,
      hprecedes.maxInFlight_eq⟩

/-- Consistent counters in which no frame was sent that was not generated, and no frame waits for an
acknowledgement that will not come. -/
structure IsOrdered (f : Flow) : Prop extends f.IsConsistent where
  sent_le : f.sent ≤ f.generated
  acknowledged_eq : f.suppressed = true → f.acknowledged = f.sent

/-- New counters are in order. -/
theorem isOrdered_new (maxInFlight : UInt32) : (new maxInFlight).IsOrdered :=
  { isConsistent_new maxInFlight with
    sent_le := UInt32.le_refl 0
    acknowledged_eq := fun _ => rfl }

/-- What a use counts anew is in order if the counters were. -/
theorem IsOrdered.recounted (hf : f.IsOrdered) (hg : f.recounted? u = some g) :
    g.sent ≤ g.generated ∧ (g.suppressed = true → g.acknowledged = g.sent) := by
  have hsent := hf.sent_le
  have hacknowledged := hf.acknowledged_eq
  cases u with
  | generated id => cases hg
  | sent id => grind [recounted?, min_eq_ite]
  | acknowledged id => grind [recounted?, min_eq_ite]
  | suppress suppressed => grind [recounted?]

/-- Counters in order stay so. -/
theorem IsOrdered.use (hf : f.IsOrdered) (u : FlowUse) : (f.use u).IsOrdered := by
  have hgenerated := generated_le_use f u
  have hkept : (f.use u).sent ≤ (f.use u).generated ∧
      ((f.use u).suppressed = true → (f.use u).acknowledged = (f.use u).sent) := by
    rw [use_eq]
    cases hg : f.recounted? u with
    | none => exact ⟨UInt32.le_trans hf.sent_le hgenerated, hf.acknowledged_eq⟩
    | some g =>
      obtain ⟨hsent, hacknowledged⟩ := hf.recounted hg
      exact ⟨hsent, hacknowledged⟩
  exact { (hf.toIsConsistent.use u).1 with sent_le := hkept.1, acknowledged_eq := hkept.2 }

/-- Counters that were made new and then used are in order, with the ceiling they were made with. -/
theorem isOrdered_uses (maxInFlight : UInt32) (uses : List FlowUse) :
    (uses.foldl Flow.use (new maxInFlight)).IsOrdered ∧
      (uses.foldl Flow.use (new maxInFlight)).maxInFlight = maxInFlight := by
  induction uses using List.reverseRecOn with
  | nil => exact ⟨isOrdered_new maxInFlight, rfl⟩
  | append_singleton uses u ih =>
    obtain ⟨hordered, hmax⟩ := ih
    rw [List.foldl_append, List.foldl_cons, List.foldl_nil]
    exact ⟨hordered.use u, (hordered.toIsConsistent.use u).2.maxInFlight_eq.trans hmax⟩

/-- Whether a use subtracts the acknowledged frames from no fewer that were sent, if it counts the
frames in flight anew, and else leaves all but the generated frames alone. -/
def CountsInRange (f : Flow) (u : FlowUse) : Prop :=
  match f.recounted? u with
  | some g => g.acknowledged ≤ g.sent ∧ f.use u = g.recompute
  | none => f.use u = { f with generated := (f.use u).generated }

/-- However counters are used, they are in order, no frame is taken back by any further use, and the
frames in flight are those sent and not acknowledged, of which there are none while acknowledgements
are suppressed or when they are expected again. -/
theorem keepsOrder_uses (maxInFlight : UInt32) (uses : List FlowUse) :
    let f := uses.foldl Flow.use (new maxInFlight)
    (f.acknowledged ≤ f.sent ∧ f.sent ≤ f.generated) ∧
      (f.inFlight.toNat : Int) =
        (if f.suppressed then 0 else (f.sent.toNat : Int) - f.acknowledged.toNat) ∧
      (f.suppressed = true →
        f.acknowledged = f.sent ∧ (f.use (.suppress false)).inFlight = 0) ∧
      (∀ u, f.CountsInRange u ∧ f.Precedes (f.use u)) ∧ f.maxInFlight = maxInFlight := by
  intro f
  obtain ⟨hordered, hmax⟩ : f.IsOrdered ∧ f.maxInFlight = maxInFlight :=
    isOrdered_uses maxInFlight uses
  refine ⟨⟨hordered.acknowledged_le, hordered.sent_le⟩, ?_, fun hs => ⟨hordered.acknowledged_eq hs,
    ?_⟩, fun u => ⟨?_, (hordered.toIsConsistent.use u).2⟩, hmax⟩
  · cases hs : f.suppressed with
    | true => rw [hordered.inFlight_eq, hs, if_pos rfl, if_pos rfl]; rfl
    | false =>
      have hsum := hordered.inFlight_add hs
      rw [if_neg Bool.false_ne_true]
      omega
  · have hlifted : (f.use (.suppress false)).inFlight = f.sent - f.acknowledged := rfl
    rw [hlifted, hordered.acknowledged_eq hs]
    exact UInt32.sub_self f.sent
  · have huse := use_eq f u
    unfold CountsInRange
    cases hg : f.recounted? u with
    | none =>
      rw [hg] at huse
      exact huse
    | some g =>
      rw [hg] at huse
      exact ⟨(le_of_recounted hordered.acknowledged_le hg).1, huse⟩

/-- Frames that were never generated or sent count as the last that were. -/
example : [.generated 5, .sent 9, .acknowledged 12].foldl Flow.use (new 4) =
    ⟨5, 5, 5, 0, false, 4⟩ := by decide

end Flow

end FrameEncoder
