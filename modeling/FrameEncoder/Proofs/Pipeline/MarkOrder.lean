import FrameEncoder.Proofs.Pipeline.Announcements

/-!
# The order of marks and results

The encode thread marks a frame as sent before it sends the frame's last result. So the frames
marked as sent are those of the first commands submitted, in order, and the frames completed for the
consumer are always the first of the frames marked.
-/

namespace FrameEncoder

/-- The frames of numbered commands, in order. -/
def framesOf (commands : List (Nat × Command)) : List UInt32 :=
  commands.filterMap fun x => x.2.frameId

namespace Move

variable {β : Type}

/-- The frame the encode thread marked as sent by a move. -/
def marked (x : Move β) : List UInt32 := x.seen.filterMap Effect.marked?

/-- The frames a move completed for the consumer. -/
def completed (x : Move β) : List UInt32 := x.received.filterMap EncodeResult.completedFrame

end Move

variable {β : Type}

/-- The frames that results complete. -/
def completedBy (results : List EncodeResult) : List UInt32 :=
  results.filterMap EncodeResult.completedFrame

/-- The frames that effects mark as sent. -/
def markedBy (effects : List Effect) : List UInt32 := effects.filterMap Effect.marked?

/-- Whether frames are marked as sent, and before the results that complete them are sent. -/
structure MarksFirst (effects : List Effect) : Prop where
  completed_eq : completedBy (sentBy effects) = markedBy effects
  completed_prefix : ∀ seen, seen <+: effects → completedBy (sentBy seen) <+: markedBy seen

/-- To mark first is to announce completed frames by marks. -/
theorem marksFirst_iff {effects : List Effect} : MarksFirst effects ↔
    Announces EncodeResult.completedFrame Effect.marked? effects :=
  ⟨fun h => ⟨h.completed_eq, h.completed_prefix⟩, fun h => ⟨h.told_eq, h.told_prefix⟩⟩

/-- Publishing a result marks its frame before the result is sent. -/
theorem announces_marked_publish (r : EncodeResult) :
    Announces EncodeResult.completedFrame Effect.marked? (publish r) := by
  have hmarks : Announces EncodeResult.completedFrame Effect.marked?
      (r.completedFrame.toList.map Effect.markSent ++ [.send r]) := by
    apply announces_concat
    · intro e he
      obtain ⟨id, -, rfl⟩ := List.mem_map.mp he
      rfl
    · cases r.completedFrame <;> rfl
    · rfl
  have hcount : Announces EncodeResult.completedFrame Effect.marked?
      [.countResult r.payload.size] := by
    apply announces_of_silent
    intro e he
    rw [List.mem_singleton.mp he]
    exact ⟨rfl, rfl⟩
  exact hcount.append hmarks

/-- The effects of a command that was dealt with mark first. -/
theorem Dealt.IsBy.marksFirst {B : Backend β} {config : PipelineConfig} {d : Dealt β}
    (h : d.IsBy B config) : MarksFirst d.effects :=
  marksFirst_iff.mpr (h.announces announces_marked_publish (by simp [Effect.marked?]))

/-- The effects of commands that were dealt with one after the other mark first. -/
theorem marksFirst_flatMap {ds : List (Dealt β)} (h : ∀ d ∈ ds, MarksFirst d.effects) :
    MarksFirst (ds.flatMap Dealt.effects) :=
  marksFirst_iff.mpr (announces_flatMap fun d hd => marksFirst_iff.mp (h d hd))

/-- The group of a command completes its frame, if it has one, and nothing else. -/
theorem completedBy_of_isGroup {seq : Nat} {c : Command} {g : List EncodeResult}
    (h : IsGroup seq c g) : completedBy g = c.frameId.toList := by
  obtain ⟨init, r, rfl, hcontinues, hlast⟩ := h.exists_concat
  have hinit : completedBy init = [] := by
    refine List.filterMap_eq_nil_iff.mpr fun q hq => ?_
    rw [EncodeResult.completedFrame, hcontinues q hq, if_neg Bool.false_ne_true]
  have hr : r.completedFrame = c.frameId := by
    rw [EncodeResult.completedFrame, hlast, if_pos rfl]
    exact (h.labelled r (by simp)).frameId_eq
  rw [completedBy, List.filterMap_append, show init.filterMap _ = [] from hinit, List.nil_append,
    ← hr]
  cases hc : r.completedFrame <;> simp [hc]

/-- Complete groups complete the frames of their commands. -/
theorem completedBy_flatten {commands : List (Nat × Command)} {groups : List (List EncodeResult)}
    (h : List.Forall₂ (fun x g => IsGroup x.1 x.2 g) commands groups) :
    completedBy groups.flatten = framesOf commands := by
  induction h with
  | nil => rfl
  | @cons x g commands groups hg _ ih =>
    have hhead : completedBy g = (x.2.frameId).toList := completedBy_of_isGroup hg
    rw [List.flatten_cons, completedBy, List.filterMap_append, ← completedBy, ← completedBy, ih,
      hhead, framesOf, framesOf, List.filterMap_cons]
    cases x.2.frameId <;> rfl

/-- What was published and what is about to be completes the frames of the first commands. -/
theorem completedBy_prefix_of_account {s : System β} {submitted : List (Nat × Command)}
    {published : List EncodeResult} (h : Account s submitted published) :
    completedBy (published ++ sentBy s.worker.effects) <+: framesOf submitted := by
  obtain ⟨finished, todo, groups, current, rfl, rfl, hgroups, hback⟩ := h
  have hcurrent : completedBy (current ++ sentBy s.worker.effects) <+: framesOf todo := by
    cases hw : s.worker with
    | publishing effects =>
      rw [hw] at hback
      obtain ⟨seq, c, rfl, hgroup⟩ := hback
      rw [Worker.effects, completedBy_of_isGroup hgroup, framesOf, List.filterMap_cons]
      cases c.frameId <;> simp
    | gone crashed =>
      rw [hw] at hback
      rw [show current = [] from hback]
      exact List.nil_prefix
    | _ =>
      rw [hw] at hback
      rw [hback.2]
      exact List.nil_prefix
  rw [List.append_assoc, completedBy, List.filterMap_append, ← completedBy, ← completedBy,
    completedBy_flatten hgroups, framesOf, framesOf, List.filterMap_append]
  exact (List.prefix_append_right_inj _).mpr hcurrent

/-- The frames on their way through a pipeline: those marked as sent are the frames of the first
commands submitted, and those completed for the consumer are the first of them. -/
structure FramesInOrder (history : List (Move β)) (s : System β) : Prop where
  marked_prefix : history.flatMap Move.marked ++ markedBy s.worker.effects <+:
    framesOf (history.flatMap Move.submitted)
  completed_prefix : history.flatMap Move.completed <+: history.flatMap Move.marked

/-- Along every schedule frames are on their way in order. -/
theorem framesInOrder_run (B : Backend β) (config : PipelineConfig) (backend : β)
    (schedule : List Mover) :
    let start := System.new config backend
    FramesInOrder (start.moves B schedule) (start.run B schedule) := by
  intro start
  obtain ⟨hheld, haccount, hdelivery⟩ := account_run B config backend schedule
  have htraced := traced_run (B := B) (account_new config backend).1 schedule
  set history := start.moves B schedule
  set s := start.run B schedule
  have hseen : (history.flatMap Move.dealt).flatMap Dealt.effects =
      history.flatMap Move.seen ++ s.worker.effects := htraced.effects_eq
  have hfirst := marksFirst_flatMap fun d hd => (htraced.isBy d hd).marksFirst
  rw [hseen] at hfirst
  have hmarked : history.flatMap Move.marked = markedBy (history.flatMap Move.seen) :=
    (List.filterMap_flatMap ..).symm
  have hcompleted : history.flatMap Move.completed = completedBy (history.flatMap Move.received) :=
    (List.filterMap_flatMap ..).symm
  constructor
  · have hsent : sentBy (history.flatMap Move.seen ++ s.worker.effects) =
        history.flatMap Move.published ++ sentBy s.worker.effects := by
      rw [published_flatMap, sentBy, List.filterMap_append]
      rfl
    rw [hmarked, markedBy, markedBy, ← List.filterMap_append, ← markedBy, ← hfirst.completed_eq,
      hsent]
    exact completedBy_prefix_of_account haccount
  · have hpublished := hfirst.completed_prefix _ (List.prefix_append _ _)
    rw [← published_flatMap] at hpublished
    rw [hmarked, hcompleted]
    exact (hdelivery.received_prefix.filterMap _).trans hpublished

end FrameEncoder
