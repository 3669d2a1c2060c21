import FrameEncoder.Proofs.Pipeline.ResultGroups
import FrameEncoder.Proofs.Pipeline.Schedules
import Mathlib.Data.List.Forall2

/-!
# The stream of results

Along every schedule, what the encode thread publishes is one group of results after another, for
the first commands that were submitted and in the order of their submission. Only the group being
published may be incomplete. What the consumer has received is the beginning of what was
published, and all of it but the results still queued for it as long as the consumer listens.
-/

namespace FrameEncoder

namespace Move

variable {β : Type}

/-- The command a move submitted, with the number it was given. -/
def submitted (x : Move β) : List (Nat × Command) :=
  match x.mover, x.before.owner, x.after.owner with
  | .owner, .queueing _ c, .ready (some (.submitted seq)) => [(seq, c)]
  | _, _, _ => []

/-- The result a move published. -/
def published (x : Move β) : List EncodeResult :=
  match x.mover, x.before.worker with
  | .worker, .publishing (e :: _) => e.sent?.toList
  | _, _ => []

/-- The result a move received. -/
def received (x : Move β) : List EncodeResult :=
  match x.mover with
  | .receive => x.before.outbound.head?.toList
  | _ => []

end Move

/-- The commands among queued messages. -/
def queued (messages : List Message) : List (Nat × Command) :=
  messages.filterMap fun
    | .command seq c => some (seq, c)
    | .wake => none

/-- The submitted commands whose groups are not complete, from where the encode thread is, its
queue and what it has published of the group in hand. -/
def Backlog (worker : Worker) (inbound : List Message) (todo : List (Nat × Command))
    (current : List EncodeResult) : Prop :=
  match worker with
  | .held | .looping | .receiving => todo = queued inbound ∧ current = []
  | .rechecking m => todo = queued (m :: inbound) ∧ current = []
  | .counting seq c | .encoding seq c => todo = (seq, c) :: queued inbound ∧ current = []
  | .publishing effects =>
    ∃ seq c, todo = (seq, c) :: queued inbound ∧ IsGroup seq c (current ++ sentBy effects)
  | .gone _ => current = []

/-- What was submitted and what was published, accounted for: complete groups of the first
commands, and the beginning of the group in hand. -/
def Account {β : Type} (s : System β) (submitted : List (Nat × Command))
    (published : List EncodeResult) : Prop :=
  ∃ finished todo groups current, submitted = finished ++ todo ∧
    published = groups.flatten ++ current ∧
    List.Forall₂ (fun x g => IsGroup x.1 x.2 g) finished groups ∧
    Backlog s.worker s.inbound todo current

/-- A thread that is being started has not run yet. -/
def System.StartsHeld {β : Type} (s : System β) : Prop :=
  ∀ refusal, s.owner = .spawning refusal → s.worker = .held

variable {β : Type} {B : Backend β} {s t : System β}

/-- Queued messages are looked through one by one. -/
theorem queued_append (xs ys : List Message) : queued (xs ++ ys) = queued xs ++ queued ys :=
  List.filterMap_append

/-- A message queued behind others adds its command to the backlog. -/
theorem Backlog.queue {worker : Worker} {inbound : List Message} {todo : List (Nat × Command)}
    {current : List EncodeResult} (h : Backlog worker inbound todo current)
    (hw : worker.isGone = false) (m : Message) :
    Backlog worker (inbound ++ [m]) (todo ++ queued [m]) current := by
  cases worker with
  | held =>
    obtain ⟨rfl, rfl⟩ := h
    exact ⟨(queued_append ..).symm, rfl⟩
  | looping =>
    obtain ⟨rfl, rfl⟩ := h
    exact ⟨(queued_append ..).symm, rfl⟩
  | receiving =>
    obtain ⟨rfl, rfl⟩ := h
    exact ⟨(queued_append ..).symm, rfl⟩
  | rechecking m' =>
    obtain ⟨rfl, rfl⟩ := h
    exact ⟨(queued_append (m' :: inbound) [m]).symm, rfl⟩
  | counting seq c =>
    obtain ⟨rfl, rfl⟩ := h
    exact ⟨by rw [queued_append, List.cons_append], rfl⟩
  | encoding seq c =>
    obtain ⟨rfl, rfl⟩ := h
    exact ⟨by rw [queued_append, List.cons_append], rfl⟩
  | publishing effects =>
    obtain ⟨seq, c, rfl, hgroup⟩ := h
    exact ⟨seq, c, by rw [queued_append, List.cons_append], hgroup⟩
  | gone crashed => cases hw

/-- A thread that is being started stays held until it is. -/
theorem startsHeld_move {m : Mover} (h : s.StartsHeld) (hmove : System.Moves B s m t) :
    t.StartsHeld := by
  intro refusal ho
  cases m with
  | worker =>
    have hheld := h refusal ((System.owner_eq_of_worker hmove).symm.trans ho)
    exact absurd hheld (System.worker_ne_held hmove)
  | owner =>
    cases hmove <;> cases ho
  | call c =>
    cases hmove with
    | start _ hw => exact hw
    | _ => cases ho
  | receive =>
    cases hmove with
    | receive hr => exact h refusal ho
  | dropReceiver =>
    cases hmove
    exact h refusal ho
  | flow u =>
    cases hmove
    exact h refusal ho

/-- A move that submits and publishes nothing and leaves the backlog as it is keeps the
account. -/
theorem Account.keep {submitted more : List (Nat × Command)}
    {published results : List EncodeResult} (h : Account s submitted published)
    (hback : ∀ todo current, Backlog s.worker s.inbound todo current →
      Backlog t.worker t.inbound todo current)
    (hmore : more = []) (hresults : results = []) :
    Account t (submitted ++ more) (published ++ results) := by
  obtain ⟨finished, todo, groups, current, hsub, hpub, hgroups, hb⟩ := h
  refine ⟨finished, todo, groups, current, ?_, ?_, hgroups, hback todo current hb⟩
  · rw [hmore, List.append_nil, hsub]
  · rw [hresults, List.append_nil, hpub]

/-- The group in hand is complete once all its effects were let be seen. -/
theorem Account.finish {submitted : List (Nat × Command)} {published : List EncodeResult}
    (h : Account s submitted published) (hw : s.worker = .publishing []) :
    Account { s with worker := .looping } submitted published := by
  obtain ⟨finished, todo, groups, current, hsub, hpub, hgroups, hback⟩ := h
  rw [hw] at hback
  obtain ⟨seq, c, rfl, hgroup⟩ := hback
  have hcurrent : IsGroup seq c current := by
    simpa only [sentBy, List.filterMap_nil, List.append_nil] using hgroup
  refine ⟨finished ++ [(seq, c)], queued s.inbound, groups ++ [current], [], ?_, ?_, ?_, rfl, rfl⟩
  · rw [hsub, List.append_assoc, List.singleton_append]
  · rw [hpub, List.flatten_append, List.flatten_singleton, List.append_nil]
  · exact List.rel_append hgroups (.cons hcurrent .nil)

/-- A result that is let be seen adds to the group in hand. -/
theorem Account.publish {submitted : List (Nat × Command)} {published : List EncodeResult}
    (h : Account s submitted published) {e : Effect} {effects : List Effect}
    (hw : s.worker = .publishing (e :: effects)) :
    Account { s.applyEffect e with worker := .publishing effects } submitted
      (published ++ e.sent?.toList) := by
  obtain ⟨finished, todo, groups, current, hsub, hpub, hgroups, hback⟩ := h
  rw [hw] at hback
  obtain ⟨seq, c, htodo, hgroup⟩ := hback
  have hsent : sentBy (e :: effects) = e.sent?.toList ++ sentBy effects := by
    simp only [sentBy, List.filterMap_cons]
    cases e.sent? <;> rfl
  refine ⟨finished, todo, groups, current ++ e.sent?.toList, hsub, ?_, hgroups, seq, c, ?_, ?_⟩
  · rw [hpub, List.append_assoc]
  · rw [htodo, System.applyEffect_inbound]
  · rw [List.append_assoc, ← hsent]
    exact hgroup

/-- The encode thread accounts for what it takes and what it publishes. -/
theorem account_worker {submitted : List (Nat × Command)} {published : List EncodeResult}
    (h : Account s submitted published) (hmove : System.Moves B s .worker t) :
    Account t (submitted ++ Move.submitted ⟨s, .worker, t⟩)
      (published ++ Move.published ⟨s, .worker, t⟩) := by
  cases hmove with
  | stopLooping hw hs =>
    refine h.keep (fun todo current hb => ?_) rfl (by simp only [Move.published, hw])
    rw [hw] at hb
    exact hb.2
  | wait hw hs =>
    refine h.keep (fun todo current hb => ?_) rfl (by simp only [Move.published, hw])
    rw [hw] at hb
    exact hb
  | take hw hi =>
    refine h.keep (fun todo current hb => ?_) rfl (by simp only [Move.published, hw])
    rw [hw, hi] at hb
    exact hb
  | stopRechecking hw hs =>
    refine h.keep (fun todo current hb => ?_) rfl (by simp only [Move.published, hw])
    rw [hw] at hb
    exact hb.2
  | begin hw hs =>
    refine h.keep (fun todo current hb => ?_) rfl (by simp only [Move.published, hw])
    rw [hw] at hb
    exact hb
  | woken hw hs =>
    refine h.keep (fun todo current hb => ?_) rfl (by simp only [Move.published, hw])
    rw [hw] at hb
    exact hb
  | count hw =>
    refine h.keep (fun todo current hb => ?_) rfl (by simp only [Move.published, hw])
    rw [hw] at hb
    exact hb
  | @process seq c effects hw hp =>
    refine h.keep (fun todo current hb => ?_) rfl (by simp only [Move.published, hw])
    rw [hw] at hb
    obtain ⟨htodo, rfl⟩ := hb
    exact ⟨seq, c, htodo, isGroup_processCommand hp⟩
  | crash hw hp =>
    refine h.keep (fun todo current hb => ?_) rfl (by simp only [Move.published, hw])
    rw [hw] at hb
    exact hb.2
  | finish hw =>
    have hpublished : Move.published ⟨s, .worker, { s with worker := .looping }⟩ = [] := by
      simp only [Move.published, hw]
    rw [hpublished, List.append_nil]
    exact (List.append_nil submitted).symm ▸ h.finish hw
  | @effect e effects hw =>
    have hpublished : ∀ t : System β, Move.published ⟨s, .worker, t⟩ = e.sent?.toList := by
      intro t
      simp only [Move.published, hw]
    rw [hpublished]
    exact (List.append_nil submitted).symm ▸ h.publish hw

/-- Letting go of a thread that never ran drops a backlog of whole commands. -/
theorem backlog_dropHeld {todo : List (Nat × Command)} {current : List EncodeResult}
    (h : Backlog s.worker s.inbound todo current) :
    Backlog (s.dropHeld B).worker (s.dropHeld B).inbound todo current := by
  unfold System.dropHeld
  split
  · next hw =>
    rw [hw] at h
    exact h.2
  · exact h

/-- The owner accounts for what it submits. -/
theorem account_owner {submitted : List (Nat × Command)} {published : List EncodeResult}
    (hheld : s.StartsHeld) (h : Account s submitted published)
    (hmove : System.Moves B s .owner t) :
    Account t (submitted ++ Move.submitted ⟨s, .owner, t⟩)
      (published ++ Move.published ⟨s, .owner, t⟩) := by
  cases hmove with
  | spawn ho =>
    refine h.keep (fun todo current hb => ?_) (by simp only [Move.submitted, ho]) rfl
    rw [hheld _ ho] at hb
    exact hb
  | spawnRefused ho =>
    refine h.keep (fun todo current hb => ?_) (by simp only [Move.submitted, ho]) rfl
    rw [hheld _ ho] at hb
    exact hb.2
  | number ho => exact h.keep (fun _ _ hb => hb) (by simp only [Move.submitted, ho]) rfl
  | mark ho => exact h.keep (fun _ _ hb => hb) (by simp only [Move.submitted, ho]) rfl
  | queueGone ho hw =>
    exact h.keep (fun _ _ hb => hb) (by simp only [Move.submitted, ho, System.answer]) rfl
  | @queue seq c ho hw =>
    obtain ⟨finished, todo, groups, current, hsub, hpub, hgroups, hback⟩ := h
    refine ⟨finished, todo ++ [(seq, c)], groups, current, ?_, ?_, hgroups,
      hback.queue hw (.command seq c)⟩
    · simp only [Move.submitted, ho, System.answer, hsub, List.append_assoc]
    · exact (List.append_nil published).trans hpub
  | release ho ht =>
    exact h.keep (fun _ _ hb => backlog_dropHeld hb) (by simp only [Move.submitted, ho]) rfl
  | releaseIdle ho ht =>
    exact h.keep (fun _ _ hb => backlog_dropHeld hb) (by simp only [Move.submitted, ho]) rfl
  | wake ho =>
    refine h.keep (fun todo current hb => ?_) (by simp only [Move.submitted, ho]) rfl
    simp only
    split
    · exact hb
    · next hw =>
      rw [Bool.not_eq_true] at hw
      simpa only [queued, List.filterMap_cons, List.filterMap_nil, List.append_nil] using
        hb.queue hw .wake
  | join ho hw => exact h.keep (fun _ _ hb => hb) (by simp only [Move.submitted, ho]) rfl

/-- Every move keeps the account. -/
theorem account_move {submitted : List (Nat × Command)} {published : List EncodeResult} {m : Mover}
    (hheld : s.StartsHeld) (h : Account s submitted published) (hmove : System.Moves B s m t) :
    Account t (submitted ++ Move.submitted ⟨s, m, t⟩) (published ++ Move.published ⟨s, m, t⟩) := by
  have hback : m ≠ .worker → m ≠ .owner → ∀ todo current,
      Backlog s.worker s.inbound todo current → Backlog t.worker t.inbound todo current := by
    intro hworker howner todo current hb
    obtain ⟨hw, hi⟩ := System.worker_eq_of_ne hmove hworker howner
    rw [hw, hi]
    exact hb
  cases m with
  | worker => exact account_worker h hmove
  | owner => exact account_owner hheld h hmove
  | call c => exact h.keep (hback (by simp) (by simp)) rfl rfl
  | receive => exact h.keep (hback (by simp) (by simp)) rfl rfl
  | dropReceiver => exact h.keep (hback (by simp) (by simp)) rfl rfl
  | flow u => exact h.keep (hback (by simp) (by simp)) rfl rfl

/-- Where published results are: received, or still queued as long as the consumer listens. -/
structure Delivery (s : System β) (published received : List EncodeResult) : Prop where
  received_prefix : received <+: published
  published_eq : s.receiver = true → published = received ++ s.outbound
  outbound_eq : s.receiver = false → s.outbound = []

/-- A move that neither publishes nor receives keeps every result where it is. -/
theorem Delivery.keep {published received : List EncodeResult} (h : Delivery s published received)
    {m : Mover} (hout : t.outbound = s.outbound) (hrec : t.receiver = s.receiver)
    (hpublished : Move.published ⟨s, m, t⟩ = []) (hreceived : Move.received ⟨s, m, t⟩ = []) :
    Delivery t (published ++ Move.published ⟨s, m, t⟩) (received ++ Move.received ⟨s, m, t⟩) := by
  rw [hpublished, hreceived, List.append_nil, List.append_nil]
  exact ⟨h.received_prefix, by rw [hout, hrec]; exact h.published_eq,
    by rw [hout, hrec]; exact h.outbound_eq⟩

/-- A published result is queued for the consumer, if it listens. -/
theorem Delivery.publish {published received : List EncodeResult}
    (h : Delivery s published received) {e : Effect} {effects : List Effect}
    (hw : s.worker = .publishing (e :: effects)) :
    let t := { s.applyEffect e with worker := .publishing effects }
    Delivery t (published ++ Move.published ⟨s, .worker, t⟩) received := by
  intro t
  have hpublished : Move.published ⟨s, .worker, t⟩ = e.sent?.toList := by
    simp only [Move.published, hw]
  rw [hpublished]
  cases e with
  | send r =>
    refine ⟨h.received_prefix.trans (List.prefix_append _ _), fun hlistens => ?_, fun hgone => ?_⟩
    · have hout : t.outbound = s.outbound ++ [r] := if_pos hlistens
      rw [hout, ← List.append_assoc, ← h.published_eq hlistens]
      rfl
    · have hout : t.outbound = s.outbound :=
        if_neg (by rw [show s.receiver = false from hgone]; exact Bool.false_ne_true)
      rw [hout]
      exact h.outbound_eq hgone
  | _ =>
    simp only [Effect.sent?, Option.toList_none, List.append_nil]
    exact ⟨h.received_prefix, h.published_eq, h.outbound_eq⟩

/-- Letting go of the encode thread touches no result. -/
theorem outbound_dropHeld (s : System β) :
    (s.dropHeld B).outbound = s.outbound ∧ (s.dropHeld B).receiver = s.receiver := by
  rw [System.dropHeld_eq]
  exact ⟨rfl, rfl⟩

/-- Every move keeps track of every published result. -/
theorem delivery_move {published received : List EncodeResult} {m : Mover}
    (h : Delivery s published received) (hmove : System.Moves B s m t) :
    Delivery t (published ++ Move.published ⟨s, m, t⟩) (received ++ Move.received ⟨s, m, t⟩) := by
  cases hmove with
  | @effect e effects hw =>
    rw [show ∀ t : System β, Move.received ⟨s, .worker, t⟩ = [] from fun _ => rfl, List.append_nil]
    exact h.publish hw
  | @receive r rest hr =>
    have hreceived : Move.received ⟨s, .receive, { s with outbound := rest }⟩ = [r] := by
      simp only [Move.received, hr, List.head?_cons, Option.toList_some]
    have hpublished : Move.published ⟨s, .receive, { s with outbound := rest }⟩ = [] := rfl
    have hlistens : s.receiver = true := by
      rw [← Bool.not_eq_false]
      intro hgone
      rw [h.outbound_eq hgone] at hr
      cases hr
    have hall : published = received ++ [r] ++ rest := by
      rw [h.published_eq hlistens, hr, List.append_assoc, List.singleton_append]
    rw [hreceived, hpublished, List.append_nil]
    refine ⟨⟨rest, hall.symm⟩, fun _ => hall, fun hgone => ?_⟩
    rw [show s.receiver = false from hgone] at hlistens
    cases hlistens
  | dropReceiver =>
    have hnothing : received ++ Move.received ⟨s, .dropReceiver, s.dropReceiver⟩ = received :=
      List.append_nil _
    rw [hnothing]
    refine ⟨h.received_prefix.trans (List.prefix_append _ _), fun hlistens => ?_, fun _ => rfl⟩
    cases hlistens
  | release ho ht => exact h.keep (outbound_dropHeld s).1 (outbound_dropHeld s).2 rfl rfl
  | releaseIdle ho ht => exact h.keep (outbound_dropHeld s).1 (outbound_dropHeld s).2 rfl rfl
  | _ =>
    refine h.keep rfl rfl ?_ rfl
    first
      | rfl
      | simp only [Move.published, *]

/-- A pipeline that was just made accounts for nothing. -/
theorem account_new (config : PipelineConfig) (backend : β) :
    (System.new config backend).StartsHeld ∧ Account (System.new config backend) [] [] ∧
      Delivery (System.new config backend) [] [] := by
  refine ⟨fun refusal ho => ?_, ⟨[], [], [], [], rfl, rfl, .nil, rfl, rfl⟩,
    ⟨List.prefix_rfl, fun _ => rfl, fun _ => rfl⟩⟩
  cases ho

/-- Every schedule accounts for what was submitted, published and received. -/
theorem account_run (B : Backend β) (config : PipelineConfig) (backend : β)
    (schedule : List Mover) :
    let start := System.new config backend
    let history := start.moves B schedule
    (start.run B schedule).StartsHeld ∧
      Account (start.run B schedule) (history.flatMap Move.submitted)
        (history.flatMap Move.published) ∧
      Delivery (start.run B schedule) (history.flatMap Move.published)
        (history.flatMap Move.received) := by
  intro start history
  refine System.run_induction
    (P := fun history s => s.StartsHeld ∧
      Account s (history.flatMap Move.submitted) (history.flatMap Move.published) ∧
      Delivery s (history.flatMap Move.published) (history.flatMap Move.received))
    (account_new config backend) ?_ schedule
  rintro history s m t ⟨hheld, haccount, hdelivery⟩ hnext
  have hmove := System.moves_of_next hnext
  simp only [List.flatMap_append, List.flatMap_singleton]
  exact ⟨startsHeld_move hheld hmove, account_move hheld haccount hmove,
    delivery_move hdelivery hmove⟩

/-- The law of the result stream, along every schedule of every pipeline. -/
theorem resultStream (B : Backend β) (config : PipelineConfig) (backend : β)
    (schedule : List Mover) :
    let start := System.new config backend
    let history := start.moves B schedule
    let submitted := history.flatMap Move.submitted
    let published := history.flatMap Move.published
    let received := history.flatMap Move.received
    (∃ groups current, published = groups.flatten ++ current ∧
      List.Forall₂ (fun x g => IsGroup x.1 x.2 g) (submitted.take groups.length) groups ∧
      (current ≠ [] → ∃ seq c rest effects, submitted[groups.length]? = some (seq, c) ∧
        IsGroup seq c (current ++ rest) ∧
        (start.run B schedule).worker = .publishing effects ∧ sentBy effects = rest)) ∧
    received <+: published ∧
    ((start.run B schedule).receiver = true →
      published = received ++ (start.run B schedule).outbound) := by
  intro start history submitted published received
  obtain ⟨-, haccount, hdelivery⟩ := account_run B config backend schedule
  obtain ⟨finished, todo, groups, current, hsub, hpub, hgroups, hback⟩ := haccount
  refine ⟨⟨groups, current, hpub, ?_, fun hcurrent => ?_⟩, hdelivery.received_prefix,
    hdelivery.published_eq⟩
  · rw [show submitted = finished ++ todo from hsub, List.take_left' hgroups.length_eq]
    exact hgroups
  · cases hw : (start.run B schedule).worker with
    | publishing effects =>
      rw [hw] at hback
      obtain ⟨seq, c, htodo, hgroup⟩ := hback
      refine ⟨seq, c, sentBy effects, effects, ?_, hgroup, rfl, rfl⟩
      rw [show submitted = finished ++ todo from hsub, htodo,
        List.getElem?_append_right (Nat.le_of_eq hgroups.length_eq), hgroups.length_eq,
        Nat.sub_self]
      rfl
    | gone crashed =>
      rw [hw] at hback
      exact absurd hback hcurrent
    | _ =>
      rw [hw] at hback
      exact absurd hback.2 hcurrent

end FrameEncoder
