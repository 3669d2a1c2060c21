import FrameEncoder.Proofs.Pipeline.Pacing

/-!
# Frames that were sent stay sent

Whoever uses the frame counters, and for what: a frame that entered the pipeline counts as generated
from then on, and a frame that was marked as sent counts as sent. So every frame completed for the
consumer can be acknowledged at once, and its acknowledgement is not cut down to an earlier frame.
-/

namespace FrameEncoder

variable {β : Type} {B : Backend β} {s t : System β}

namespace Flow

variable {f : Flow} {id : UInt32}

/-- A frame that entered counts as generated. -/
theorem le_generated_frameGenerated : id ≤ (f.frameGenerated id).generated := by
  rw [generated_frameGenerated]
  grind [max_eq_ite]

/-- A generated frame that is marked as sent counts as sent. -/
theorem le_sent_frameSent (h : id ≤ f.generated) : id ≤ (f.frameSent id).sent := by
  rw [sent_frameSent h]
  grind [max_eq_ite]

/-- A sent frame that is acknowledged counts as acknowledged. -/
theorem le_acknowledged_frameAcknowledged (h : id ≤ f.sent) :
    id ≤ (f.frameAcknowledged id).acknowledged := by
  rw [acknowledged_frameAcknowledged h]
  grind [max_eq_ite]

end Flow

/-- A frame that enters by a move counts as generated. -/
theorem le_generated_of_entered {m : Mover} (hmove : System.Moves B s m t) {id : UInt32}
    (hid : id ∈ framesOf (Move.entered ⟨s, m, t⟩)) : id ≤ t.flow.generated := by
  cases hmove with
  | @mark seq c ho =>
    simp only [Move.entered, ho, framesOf, List.filterMap_cons, List.filterMap_nil] at hid
    cases hc : c.frameId with
    | none => simp [hc] at hid
    | some id' =>
      obtain rfl : id = id' := by simpa [hc] using hid
      exact Flow.le_generated_frameGenerated
  | _ => simp [Move.entered, framesOf, *] at hid

/-- A generated frame that a move marks as sent counts as sent. -/
theorem le_sent_of_marked {m : Mover} (hmove : System.Moves B s m t) {id : UInt32}
    (hid : id ∈ Move.marked ⟨s, m, t⟩) (hgenerated : id ≤ s.flow.generated) :
    id ≤ t.flow.sent := by
  cases hmove with
  | @effect e effects hw =>
    simp only [Move.marked, Move.seen, hw, List.filterMap_cons, List.filterMap_nil] at hid
    cases e with
    | markSent id' =>
      obtain rfl : id = id' := by simpa [Effect.marked?] using hid
      exact Flow.le_sent_frameSent hgenerated
    | _ => simp [Effect.marked?] at hid
  | _ => simp [Move.marked, Move.seen, *] at hid

/-- Along every schedule the frames that entered count as generated. -/
theorem entered_le_generated (B : Backend β) (config : PipelineConfig) (backend : β)
    (schedule : List Mover) :
    let start := System.new config backend
    ∀ id ∈ framesOf ((start.moves B schedule).flatMap Move.entered),
      id ≤ (start.run B schedule).flow.generated := by
  intro start
  refine System.run_induction_of (P := fun history s =>
    ∀ id ∈ framesOf (history.flatMap Move.entered), id ≤ s.flow.generated)
    (I := fun _ s => s.flow.IsOrdered) (fun schedule => (isOrdered_run B config backend schedule).1)
    (fun id hid => absurd hid List.not_mem_nil) ?_ schedule
  intro history s m t hs h hnext id hid
  have hmove := System.moves_of_next hnext
  rw [List.flatMap_append, List.flatMap_singleton, framesOf, List.filterMap_append] at hid
  rcases List.mem_append.mp hid with hid | hid
  · exact UInt32.le_trans (h id hid) (isOrdered_move hmove hs).2.generated_le
  · exact le_generated_of_entered hmove hid

/-- Along every schedule the frames that were marked as sent count as sent. -/
theorem marked_le_sent (B : Backend β) (config : PipelineConfig) (backend : β)
    (schedule : List Mover) :
    let start := System.new config backend
    ∀ id ∈ (start.moves B schedule).flatMap Move.marked,
      id ≤ (start.run B schedule).flow.sent := by
  intro start
  refine System.run_induction_of (P := fun history s =>
    ∀ id ∈ history.flatMap Move.marked, id ≤ s.flow.sent)
    (I := fun history s => s.flow.IsOrdered ∧
      ∀ id ∈ markedBy s.worker.effects, id ≤ s.flow.generated) (fun schedule => ?_)
    (fun id hid => absurd hid List.not_mem_nil) ?_ schedule
  · refine ⟨(isOrdered_run B config backend schedule).1, fun id hid => ?_⟩
    have hframes := framesInOrder_run B config backend schedule
    have hsubmitted := hframes.marked_prefix.subset (List.mem_append_right _ hid)
    exact entered_le_generated B config backend schedule id
      (submitted_subset_entered B config backend schedule hsubmitted)
  · rintro history s m t ⟨hs, hpending⟩ h hnext id hid
    have hmove := System.moves_of_next hnext
    rw [List.flatMap_append, List.flatMap_singleton] at hid
    rcases List.mem_append.mp hid with hid | hid
    · exact UInt32.le_trans (h id hid) (isOrdered_move hmove hs).2.sent_le
    · exact le_sent_of_marked hmove hid (hpending id (marked_subset ⟨s, m, t⟩ hid))

/-- Along every schedule the frames completed for the consumer count as sent. -/
theorem completed_le_sent (B : Backend β) (config : PipelineConfig) (backend : β)
    (schedule : List Mover) :
    let start := System.new config backend
    ∀ id ∈ (start.moves B schedule).flatMap Move.completed,
      id ≤ (start.run B schedule).flow.sent := by
  intro start id hid
  have hframes := framesInOrder_run B config backend schedule
  exact marked_le_sent B config backend schedule id (hframes.completed_prefix.subset hid)

end FrameEncoder
