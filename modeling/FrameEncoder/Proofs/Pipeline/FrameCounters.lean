import FrameEncoder.Backend.Scripted
import FrameEncoder.Proofs.Folds
import FrameEncoder.Proofs.Pipeline.Lifecycle
import FrameEncoder.Proofs.Pipeline.MarkOrder
import Mathlib.Data.List.Induction

/-!
# The frame counters of a pipeline

A submission marks its frame as generated before it queues the command, and the encode thread
marks a frame as sent before it sends the frame's last result. So no mark is ever cut down to an
earlier one: along every schedule the counters are the newest frames that were generated, sent
and acknowledged, whatever frame ids the session chooses, as long as the consumer acknowledges
nothing but frames it has received.
-/

namespace FrameEncoder

/-- The newest of some frames, zero if there are none. -/
def newest (ids : List UInt32) : UInt32 := ids.foldl max 0

/-- The newer of two frames. -/
theorem max_eq_ite (a b : UInt32) : max a b = if a ≤ b then b else a := rfl

/-- One more frame is the newest if it is newer than all before it. -/
theorem newest_concat (ids : List UInt32) (id : UInt32) :
    newest (ids ++ [id]) = max (newest ids) id := by
  simp [newest]

/-- The newest of some frames is the least bound on them. -/
theorem newest_le_iff {ids : List UInt32} {bound : UInt32} :
    newest ids ≤ bound ↔ ∀ id ∈ ids, id ≤ bound := by
  induction ids using List.reverseRecOn with
  | nil => simp [newest]
  | append_singleton ids id ih =>
    rw [newest_concat, List.forall_mem_append, ← ih, List.forall_mem_singleton]
    grind [max_eq_ite]

/-- No frame is newer than the newest. -/
theorem le_newest {ids : List UInt32} {id : UInt32} (h : id ∈ ids) : id ≤ newest ids :=
  newest_le_iff.mp (UInt32.le_refl _) id h

namespace Flow

variable {f : Flow} {id : UInt32}

/-- A generated frame is counted if it is newer. -/
theorem generated_frameGenerated : (f.frameGenerated id).generated = max f.generated id := by
  grind [frameGenerated, max_eq_ite]

/-- A sent frame that was generated is counted if it is newer. -/
theorem sent_frameSent (h : id ≤ f.generated) : (f.frameSent id).sent = max f.sent id := by
  have hid : min id f.generated = id := Std.min_eq_if.trans (if_pos h)
  grind [frameSent, recompute, max_eq_ite]

/-- An acknowledged frame that was sent is counted if it is newer. -/
theorem acknowledged_frameAcknowledged (h : id ≤ f.sent) :
    (f.frameAcknowledged id).acknowledged = max f.acknowledged id := by
  have hid : min id f.sent = id := Std.min_eq_if.trans (if_pos h)
  grind [frameAcknowledged, recompute, max_eq_ite]

/-- Generating a frame touches no other counter. -/
theorem frameGenerated_keeps (f : Flow) (id : UInt32) :
    (f.frameGenerated id).sent = f.sent ∧
      (f.frameGenerated id).acknowledged = f.acknowledged ∧
      (f.frameGenerated id).suppressed = f.suppressed := by
  grind [frameGenerated]

/-- Sending a frame touches no other counter unless acknowledgements are suppressed. -/
theorem frameSent_keeps (id : UInt32) (h : f.suppressed = false) :
    (f.frameSent id).generated = f.generated ∧
      (f.frameSent id).acknowledged = f.acknowledged ∧ (f.frameSent id).suppressed = false := by
  grind [frameSent, recompute]

/-- Acknowledging a frame touches no other counter. -/
theorem frameAcknowledged_keeps (f : Flow) (id : UInt32) :
    (f.frameAcknowledged id).generated = f.generated ∧
      (f.frameAcknowledged id).sent = f.sent ∧
      (f.frameAcknowledged id).suppressed = f.suppressed := by
  grind [frameAcknowledged, recompute]

end Flow

/-- The command a submission is about to queue. -/
def Owner.inHand : Owner → List (Nat × Command)
  | .queueing seq c => [(seq, c)]
  | _ => []

namespace Move

variable {β : Type}

/-- The command whose submission has marked its frame, if it has one, by a move. -/
def entered (x : Move β) : List (Nat × Command) :=
  match x.mover, x.before.owner with
  | .owner, .marking seq c => [(seq, c)]
  | _, _ => []

/-- The command a move turned away because the encode thread was gone. -/
def turnedAway (x : Move β) : List (Nat × Command) :=
  match x.mover, x.before.owner, x.after.owner with
  | .owner, .queueing seq c, .ready (some (.refused _)) => [(seq, c)]
  | _, _, _ => []

/-- The frame a move acknowledged. -/
def acknowledged (x : Move β) : List UInt32 :=
  match x.mover with
  | .flow (.acknowledged id) => [id]
  | _ => []

/-- The completed frames the consumer has still to acknowledge after a move, if it does nothing
with the frame counters but to acknowledge completed frames in order. -/
def await (x : Move β) (pending : List UInt32) : Option (List UInt32) :=
  match x.mover, pending with
  | .flow (.acknowledged id), first :: rest => if first = id then some rest else none
  | .flow _, _ => none
  | _, _ => some (pending ++ x.completed)

end Move

variable {β : Type}

/-- The completed frames the consumer has still to acknowledge after a history, if it keeps to
acknowledging completed frames in order and nobody else uses the frame counters. -/
def awaited (history : List (Move β)) : Option (List UInt32) :=
  history.foldlM (fun pending x => x.await pending) []

/-- A consumer that keeps to its task has kept to it before. -/
theorem awaited_concat {history : List (Move β)} {x : Move β} {pending : List UInt32}
    (h : awaited (history ++ [x]) = some pending) :
    ∃ earlier, awaited history = some earlier ∧ x.await earlier = some pending :=
  exists_of_foldlM_concat h

/-- A move settles what it acknowledges and adds what it completes. -/
theorem Move.settles {x : Move β} {earlier pending : List UInt32}
    (h : x.await earlier = some pending) : earlier ++ x.completed = x.acknowledged ++ pending := by
  unfold Move.await at h
  split at h
  · next id first rest hm =>
    split at h
    · next heq =>
      cases h
      subst heq
      simp [completed, received, acknowledged, hm]
    · cases h
  · cases h
  · next hother _ =>
    cases h
    have hnone : x.acknowledged = [] := by
      unfold acknowledged
      split
      · next id hm => exact absurd hm (hother _)
      · rfl
    rw [hnone, List.nil_append]

/-- What was acknowledged and what is awaited are the frames completed for the consumer. -/
theorem acknowledged_append_awaited {history : List (Move β)} {pending : List UInt32}
    (h : awaited history = some pending) :
    history.flatMap Move.acknowledged ++ pending = history.flatMap Move.completed := by
  induction history using List.reverseRecOn generalizing pending with
  | nil =>
    cases h
    rfl
  | append_singleton history x ih =>
    obtain ⟨earlier, hearlier, hx⟩ := awaited_concat h
    simp only [List.flatMap_append, List.flatMap_singleton]
    rw [← ih hearlier, List.append_assoc, List.append_assoc, Move.settles hx]

variable {B : Backend β} {s t : System β}

/-- A submission that has marked its frame is queued or turned away next. -/
theorem entered_move {m : Mover} (hmove : System.Moves B s m t) :
    s.owner.inHand ++ Move.entered ⟨s, m, t⟩ =
      Move.submitted ⟨s, m, t⟩ ++ Move.turnedAway ⟨s, m, t⟩ ++ t.owner.inHand := by
  by_cases hm : m = .worker
  · subst hm
    rw [System.owner_eq_of_worker hmove]
    exact List.append_nil _
  · cases hmove <;> first
      | exact absurd rfl hm
      | exact List.append_nil _
      | simp_all [Move.entered, Move.submitted, Move.turnedAway, Owner.inHand, System.answer]

/-- The commands whose submission marked their frame are those that were queued or turned away
since, in order, and the one in hand. -/
theorem entered_run (B : Backend β) (config : PipelineConfig) (backend : β)
    (schedule : List Mover) :
    let start := System.new config backend
    let history := start.moves B schedule
    history.flatMap Move.entered =
      history.flatMap (fun x => x.submitted ++ x.turnedAway) ++
        (start.run B schedule).owner.inHand := by
  refine System.run_induction (P := fun history s => history.flatMap Move.entered =
    history.flatMap (fun x => x.submitted ++ x.turnedAway) ++ s.owner.inHand) rfl ?_ schedule
  intro history s m t h hnext
  simp only [List.flatMap_append, List.flatMap_singleton]
  rw [h, List.append_assoc, entered_move (System.moves_of_next hnext)]
  simp only [List.append_assoc]

/-- A submission is turned away only when the encode thread is gone. -/
theorem gone_of_turnedAway {m : Mover} (hmove : System.Moves B s m t)
    (h : Move.turnedAway ⟨s, m, t⟩ ≠ []) :
    s.worker.isGone = true ∧ ∃ seq c, s.owner = .queueing seq c := by
  unfold Move.turnedAway at h
  split at h
  · next seq c error hm ho ht =>
    cases hm
    cases hmove with
    | queueGone _ hw => exact ⟨hw, seq, c, ho⟩
    | queue _ hw => cases ht
    | _ => simp_all only [reduceCtorEq]
  · exact absurd rfl h

/-- As long as the encode thread ends only by a shutdown, no submission is turned away after it has
marked its frame. -/
theorem turnedAway_run (B : Backend β) (config : PipelineConfig) (backend : β)
    (schedule : List Mover) :
    let start := System.new config backend
    let history := start.moves B schedule
    (∀ x ∈ history, ∀ reason, x.mover ≠ .call (.start (some reason))) →
      (start.run B schedule).worker ≠ .gone true → ∀ x ∈ history, x.turnedAway = [] := by
  let P : List (Move β) → System β → Prop := fun history s =>
    (∀ x ∈ history, ∀ reason, x.mover ≠ .call (.start (some reason))) → s.worker ≠ .gone true →
      (∀ x ∈ history, x.turnedAway = []) ∧ (s.worker.isGone = true → s.stop = true) ∧
        ∀ reason, s.owner ≠ .spawning (some reason)
  refine fun hstarts hcrash => (System.run_induction_of (P := P)
    (I := fun _ s => s.IsLawful) (System.isLawful_run (System.isLawful_new config backend)) ?_ ?_
    schedule hstarts hcrash).1
  · intro _ _
    refine ⟨fun x hx => absurd hx List.not_mem_nil, nofun, nofun⟩
  · intro history s m t hlawful h hnext hstarts hcrash
    have hmove := System.moves_of_next hnext
    have hcrashed : s.worker ≠ .gone true := fun hw =>
      hcrash ((hlawful.worker_eq_of_gone (by rw [hw]; rfl) hmove).trans hw)
    obtain ⟨hnone, hstop, hrefused⟩ :=
      h (fun x hx => hstarts x (List.mem_append_left _ hx)) hcrashed
    have hrelies := hlawful.relies
    refine ⟨fun x hx => ?_, fun hgone => ?_, fun reason ho => ?_⟩
    · rcases List.mem_append.mp hx with hx | hx
      · exact hnone x hx
      · obtain rfl := List.mem_singleton.mp hx
        by_contra haway
        obtain ⟨hw, seq, c, ho⟩ := gone_of_turnedAway hmove haway
        rw [ho] at hrelies
        exact Bool.false_ne_true (hrelies.symm.trans (hstop hw))
    · cases hs : s.worker.isGone with
      | true => exact System.stop_of_move hmove (hstop hs)
      | false =>
        cases hw : t.worker with
        | gone crashed =>
          cases crashed with
          | true => exact absurd hw hcrash
          | false =>
            rcases hlawful.stop_of_ends hmove hs hw with hset | ⟨reason, ho⟩
            · exact hset
            · exact absurd ho (hrefused reason)
        | _ =>
          rw [hw] at hgone
          cases hgone
    · rcases System.spawning_of_move hmove ho with hs | hm
      · exact hrefused reason hs
      · exact hstarts ⟨s, m, t⟩ (List.mem_append_right _ (List.mem_singleton_self _)) reason hm

/-- What a move does to the frame counters: it counts every frame that enters, is marked as sent or
is acknowledged, and cuts none of them down. -/
structure Move.CountsFrames (x : Move β) : Prop where
  suppressed_eq : x.after.flow.suppressed = x.before.flow.suppressed
  generated_eq : x.after.flow.generated = (framesOf x.entered).foldl max x.before.flow.generated
  sent_eq : x.after.flow.sent = x.marked.foldl max x.before.flow.sent
  acknowledged_eq : x.after.flow.acknowledged =
    x.acknowledged.foldl max x.before.flow.acknowledged
  marked_le : ∀ id ∈ x.marked, id ≤ x.before.flow.generated
  acknowledged_le : ∀ id ∈ x.acknowledged, id ≤ x.before.flow.sent

/-- A move that leaves the counters alone counts nothing. -/
theorem Move.CountsFrames.of_flow_eq {x : Move β} (hflow : x.after.flow = x.before.flow)
    (hentered : framesOf x.entered = []) (hmarked : x.marked = [])
    (hacknowledged : x.acknowledged = []) : x.CountsFrames := by
  constructor <;> simp [hflow, hentered, hmarked, hacknowledged]

/-- Every move counts its frames, if what it marks was generated and what it does with the counters
on behalf of the consumer is to acknowledge what was sent. -/
theorem countsFrames_move {m : Mover} (hmove : System.Moves B s m t)
    (hunsuppressed : s.flow.suppressed = false)
    (hmarked : ∀ id ∈ Move.marked ⟨s, m, t⟩, id ≤ s.flow.generated)
    (huse : ∀ u, m = .flow u → ∃ id, u = .acknowledged id ∧ id ≤ s.flow.sent) :
    Move.CountsFrames ⟨s, m, t⟩ := by
  have hdrop := System.flow_dropHeld (B := B) s
  cases hmove with
  | @mark seq c ho =>
    have hentered : ∀ t : System β, framesOf (Move.entered ⟨s, .owner, t⟩) = c.frameId.toList := by
      intro t
      simp only [Move.entered, ho, framesOf, List.filterMap_cons, List.filterMap_nil]
      cases c.frameId <;> rfl
    cases hc : c.frameId with
    | none => exact .of_flow_eq rfl ((hentered _).trans (by rw [hc]; rfl)) rfl rfl
    | some id =>
      obtain ⟨hsent, hacknowledged, hsuppressed⟩ := s.flow.frameGenerated_keeps id
      refine ⟨hsuppressed, ?_, hsent, hacknowledged, hmarked,
        fun id hid => absurd hid List.not_mem_nil⟩
      rw [hentered, hc]
      exact Flow.generated_frameGenerated
  | @effect e effects hw =>
    have hseen : ∀ t : System β, Move.marked ⟨s, .worker, t⟩ = e.marked?.toList := fun t => by
      simp only [Move.marked, Move.seen, hw, List.filterMap_cons, List.filterMap_nil]
      cases e.marked? <;> rfl
    cases e with
    | markSent id =>
      have hid : id ≤ s.flow.generated := hmarked id (by rw [hseen]; simp [Effect.marked?])
      obtain ⟨hgenerated, hacknowledged, hsuppressed⟩ :=
        Flow.frameSent_keeps id hunsuppressed
      refine ⟨hsuppressed.trans hunsuppressed.symm, hgenerated, ?_, hacknowledged, hmarked,
        fun id hid => absurd hid List.not_mem_nil⟩
      rw [hseen]
      exact Flow.sent_frameSent hid
    | _ => exact .of_flow_eq rfl rfl (hseen _) rfl
  | flow u =>
    obtain ⟨id, rfl, hid⟩ := huse u rfl
    obtain ⟨hgenerated, hsent, hsuppressed⟩ := s.flow.frameAcknowledged_keeps id
    refine ⟨hsuppressed, hgenerated, hsent, Flow.acknowledged_frameAcknowledged hid, hmarked, ?_⟩
    intro id' hid'
    obtain rfl := List.mem_singleton.mp hid'
    exact hid
  | release ho ht => exact .of_flow_eq hdrop (by simp [Move.entered, framesOf, ho]) rfl rfl
  | releaseIdle ho ht => exact .of_flow_eq hdrop (by simp [Move.entered, framesOf, ho]) rfl rfl
  | _ =>
    refine .of_flow_eq rfl ?_ ?_ rfl
    · simp [Move.entered, framesOf, *]
    · simp [Move.marked, Move.seen, *]

/-- What the frame counters say about a history. -/
structure CountsFrames (history : List (Move β)) (s : System β) : Prop where
  unsuppressed : s.flow.suppressed = false
  generated_eq : s.flow.generated = newest (framesOf (history.flatMap Move.entered))
  sent_eq : s.flow.sent = newest (history.flatMap Move.marked)
  acknowledged_eq : s.flow.acknowledged = newest (history.flatMap Move.acknowledged)
  moves : ∀ x ∈ history, x.CountsFrames

/-- A move that counts its frames keeps the counters right. -/
theorem CountsFrames.concat {history : List (Move β)} (h : CountsFrames history s) {m : Mover}
    (hx : Move.CountsFrames ⟨s, m, t⟩) : CountsFrames (history ++ [⟨s, m, t⟩]) t := by
  have hnewest : ∀ xs ys, newest (xs ++ ys) = ys.foldl max (newest xs) :=
    fun xs ys => List.foldl_append
  constructor
  · exact hx.suppressed_eq.trans h.unsuppressed
  · rw [List.flatMap_append, List.flatMap_singleton, framesOf, List.filterMap_append, hnewest,
      ← framesOf, ← framesOf, ← h.generated_eq]
    exact hx.generated_eq
  · rw [List.flatMap_append, List.flatMap_singleton, hnewest, ← h.sent_eq]
    exact hx.sent_eq
  · rw [List.flatMap_append, List.flatMap_singleton, hnewest, ← h.acknowledged_eq]
    exact hx.acknowledged_eq
  · rw [List.forall_mem_append, List.forall_mem_singleton]
    exact ⟨h.moves, hx⟩

/-- What is marked as sent was pending. -/
theorem marked_subset (x : Move β) : x.marked ⊆ markedBy x.before.worker.effects := by
  refine List.filterMap_subset _ fun e he => ?_
  unfold Move.seen at he
  split at he
  · next hw =>
    rw [hw, List.mem_singleton.mp he]
    exact List.mem_cons_self
  · exact absurd he List.not_mem_nil

/-- The frames of submitted commands have been marked as generated. -/
theorem submitted_subset_entered (B : Backend β) (config : PipelineConfig) (backend : β)
    (schedule : List Mover) :
    let history := (System.new config backend).moves B schedule
    framesOf (history.flatMap Move.submitted) ⊆ framesOf (history.flatMap Move.entered) := by
  intro history
  refine List.filterMap_subset _ fun x hx => ?_
  obtain ⟨y, hy, hxy⟩ := List.mem_flatMap.mp hx
  rw [show history.flatMap Move.entered = _ from entered_run B config backend schedule]
  exact List.mem_append_left _ (List.mem_flatMap.mpr ⟨y, hy, List.mem_append_left _ hxy⟩)

/-- What a consumer that keeps to its task does with the frame counters is to acknowledge a frame
that waits for it. -/
theorem acknowledges_of_await {x : Move β} {u : FlowUse} (hu : x.mover = .flow u)
    {earlier pending : List UInt32} (h : x.await earlier = some pending) :
    ∃ id ∈ earlier, u = .acknowledged id := by
  unfold Move.await at h
  rw [hu] at h
  split at h
  · next id first rest hm =>
    split at h
    · next heq =>
      cases hm
      exact ⟨id, heq ▸ List.mem_cons_self, rfl⟩
    · cases h
  · cases h
  · next hother _ => exact absurd rfl (hother u)

/-- The counters are right along every schedule in which the consumer keeps to its task. -/
theorem countsFrames_run (B : Backend β) (config : PipelineConfig) (backend : β)
    (schedule : List Mover) :
    let start := System.new config backend
    (awaited (start.moves B schedule)).isSome →
      CountsFrames (start.moves B schedule) (start.run B schedule) := by
  intro start
  refine System.run_induction_of
    (P := fun history s => (awaited history).isSome → CountsFrames history s)
    (I := fun history s => FramesInOrder history s ∧
      framesOf (history.flatMap Move.submitted) ⊆ framesOf (history.flatMap Move.entered))
    (fun schedule => ⟨framesInOrder_run B config backend schedule,
      submitted_subset_entered B config backend schedule⟩)
    (fun _ => ⟨rfl, rfl, rfl, rfl, fun x hx => absurd hx List.not_mem_nil⟩) ?_ schedule
  rintro history s m t ⟨hframes, hentered⟩ h hnext hawaited
  obtain ⟨pending, hpending⟩ := Option.isSome_iff_exists.mp hawaited
  obtain ⟨earlier, hearlier, hx⟩ := awaited_concat hpending
  have hcounts := h (by rw [hearlier]; rfl)
  refine hcounts.concat (countsFrames_move (System.moves_of_next hnext) hcounts.unsuppressed ?_ ?_)
  · intro id hid
    have hsubmitted := hframes.marked_prefix.subset
      (List.mem_append_right _ (marked_subset ⟨s, m, t⟩ hid))
    rw [hcounts.generated_eq]
    exact le_newest (hentered hsubmitted)
  · intro u hu
    obtain ⟨id, hid, rfl⟩ := acknowledges_of_await hu hx
    have hcompleted : id ∈ history.flatMap Move.completed := by
      rw [← acknowledged_append_awaited hearlier]
      exact List.mem_append_right _ hid
    refine ⟨id, rfl, ?_⟩
    rw [hcounts.sent_eq]
    exact le_newest (hframes.completed_prefix.subset hcompleted)

/-- That the frame counters of a pipeline lose no frame along a history. -/
structure LosesNoFrame (history : List (Move β)) (s : System β) : Prop where
  generated_eq : s.flow.generated = newest (framesOf (history.flatMap Move.entered))
  /-- The commands that entered are those that were queued or turned away, and the one in hand. -/
  entered_eq : history.flatMap Move.entered =
    history.flatMap (fun x => x.submitted ++ x.turnedAway) ++ s.owner.inHand
  /-- None is turned away unless the encode thread crashed or was never to be had. -/
  turnedAway_eq_nil : (∀ x ∈ history, ∀ reason, x.mover ≠ .call (.start (some reason))) →
    s.worker ≠ .gone true → ∀ x ∈ history, x.turnedAway = []
  sent_eq : s.flow.sent = newest (history.flatMap Move.marked)
  /-- The frames marked as sent are those of the first commands submitted, in order. -/
  marked_prefix : history.flatMap Move.marked <+: framesOf (history.flatMap Move.submitted)
  min_marked : ∀ x ∈ history, ∀ id ∈ x.marked, min id x.before.flow.generated = id
  received_le : ∀ r ∈ history.flatMap Move.received, ∀ id, r.completedFrame = some id →
    id ≤ s.flow.sent
  acknowledged_eq : s.flow.acknowledged = newest (history.flatMap Move.acknowledged)
  min_acknowledged : ∀ x ∈ history, ∀ id ∈ x.acknowledged, min id x.before.flow.sent = id

/-- No schedule loses a frame in which the consumer acknowledges, in order, the frames whose last
result it has received and nobody else uses the frame counters. -/
theorem losesNoFrame_run (B : Backend β) (config : PipelineConfig) (backend : β)
    (schedule : List Mover)
    (hconsumer : (awaited ((System.new config backend).moves B schedule)).isSome) :
    LosesNoFrame ((System.new config backend).moves B schedule)
      ((System.new config backend).run B schedule) := by
  have hcounts := countsFrames_run B config backend schedule hconsumer
  have hframes := framesInOrder_run B config backend schedule
  refine ⟨hcounts.generated_eq, entered_run B config backend schedule,
    turnedAway_run B config backend schedule, hcounts.sent_eq,
    (List.prefix_append _ _).trans hframes.marked_prefix, fun x hx id hid => ?_,
    fun r hr id hid => ?_, hcounts.acknowledged_eq, fun x hx id hid => ?_⟩
  · exact Std.min_eq_if.trans (if_pos ((hcounts.moves x hx).marked_le id hid))
  · obtain ⟨x, hx, hrx⟩ := List.mem_flatMap.mp hr
    have hcompleted : id ∈ x.completed := List.mem_filterMap.mpr ⟨r, hrx, hid⟩
    rw [hcounts.sent_eq]
    exact le_newest (hframes.completed_prefix.subset (List.mem_flatMap.mpr ⟨x, hx, hcompleted⟩))
  · exact Std.min_eq_if.trans (if_pos ((hcounts.moves x hx).acknowledged_le id hid))

/-- An update without pixels that bears a frame. -/
def blankFrame (id : UInt32) : Command :=
  .surface ⟨.empty, [], 0, 0, 0, 0, 0, 0, .nv12, 0, some id⟩

/-- Two frames, the second of an older id than the first. The first is received and acknowledged
before the encode thread goes on to the second. -/
def twoFrames : List Mover :=
  [.call (.start none), .owner] ++ [.call (.submit (blankFrame 7)), .owner, .owner, .owner] ++
    [.call (.submit (blankFrame 3)), .owner, .owner, .owner] ++ List.replicate 9 .worker ++
    [.receive, .flow (.acknowledged 7)] ++ List.replicate 10 .worker ++
    [.receive, .flow (.acknowledged 3)]

/-- A schedule of two frames of decreasing ids, each acknowledged once it was received, loses
none. -/
theorem losesNoFrame_twoFrames :
    (awaited ((System.new default ⟨[], .fail .frameSkipped, []⟩).moves ScriptedBackend.backend
        twoFrames)).isSome ∧
      LosesNoFrame
        ((System.new default ⟨[], .fail .frameSkipped, []⟩).moves ScriptedBackend.backend twoFrames)
        ((System.new default ⟨[], .fail .frameSkipped, []⟩).run ScriptedBackend.backend
          twoFrames) :=
  have hconsumer : (awaited ((System.new default ⟨[], .fail .frameSkipped, []⟩).moves
      ScriptedBackend.backend twoFrames)).isSome := by decide +kernel
  ⟨hconsumer, losesNoFrame_run _ _ _ _ hconsumer⟩

end FrameEncoder
