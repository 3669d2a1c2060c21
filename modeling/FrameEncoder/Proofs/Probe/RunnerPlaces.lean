import FrameEncoder.Proofs.Pipeline.CrashFree
import FrameEncoder.Proofs.Pipeline.SentFrames
import FrameEncoder.Proofs.Probe.RunnerMoves

/-!
# What holds where a runner is

As long as the encode thread does not crash, none of the calls of a runner is refused, the encode
thread is there whenever the runner waits for a result, and no frame may be dispatched when it waits
to dispatch one. The runner waits for the last results only while some are missing.
-/

namespace FrameEncoder

/-- An encode thread that was started and is not asked to stop. -/
structure System.IsServing {β : Type} (s : System β) : Prop where
  stop_eq : s.stop = false
  ne_held : s.worker ≠ .held
  isGone_eq : s.worker.isGone = false

namespace System

variable {β : Type} {B : Backend β} {s t : System β}

/-- An encode thread that does not crash goes on until it is asked to stop. -/
theorem IsServing.worker (h : s.IsServing) (hlawful : s.IsLawful) (hmove : Moves B s .worker t)
    (hcrash : t.worker ≠ .gone true) : t.IsServing := by
  have hstop : t.stop = false := (stop_eq_of_worker hmove).1.trans h.stop_eq
  refine ⟨hstop, (inbound_of_worker hmove).1, ?_⟩
  cases hw : t.worker with
  | gone crashed =>
    cases crashed with
    | true => exact absurd hw hcrash
    | false =>
      rcases hlawful.stop_of_ends hmove h.isGone_eq hw with hset | ⟨reason, ho⟩
      · exact absurd (hstop.symm.trans hset) Bool.false_ne_true
      · exact absurd (hlawful.relies_of ho).2 h.ne_held
  | _ => rfl

/-- The encode thread marks frames as sent or leaves the frame counters alone. -/
theorem flow_worker (hmove : Moves B s .worker t) :
    t.flow = s.flow ∨ ∃ id, t.flow = s.flow.frameSent id := by
  cases hmove with
  | @effect e effects hw =>
    cases e with
    | markSent id => exact .inr ⟨id, rfl⟩
    | _ => exact .inl rfl
  | _ => exact .inl rfl

/-- The owner marks a frame as generated or leaves the frame counters alone. -/
theorem flow_owner (hmove : Moves B s .owner t) :
    t.flow = s.flow ∨ ∃ seq c id, s.owner = .marking seq c ∧ t.flow = s.flow.frameGenerated id := by
  cases hmove with
  | @mark seq c ho =>
    cases hc : c.frameId with
    | none => exact .inl rfl
    | some id => exact .inr ⟨seq, c, id, ho, rfl⟩
  | release ho ht => exact .inl (flow_dropHeld s)
  | releaseIdle ho ht => exact .inl (flow_dropHeld s)
  | _ => exact .inl rfl

/-- A call leaves the frame counters alone when it is made. -/
theorem flow_callStep {c : Call} (hs : s.callStep c = some t) : t.flow = s.flow := by
  unfold callStep at hs
  split at hs
  · cases hs
    split
    · split
      · rfl
      · split <;> rfl
    · split <;> rfl
    · rfl
  · cases hs

/-- A result that is taken was the first in the queue. -/
theorem outbound_of_receive {result : EncodeResult} (hs : s.receive = some (result, t)) :
    ∃ rest, s.outbound = result :: rest ∧ t = { s with outbound := rest } := by
  unfold System.receive at hs
  split at hs
  · cases hs
  · next hout =>
    cases hs
    exact ⟨_, hout, rfl⟩

/-- The consumer keeps its end of the queue of results until it gives it up. -/
theorem receiver_eq_of_ne {m : Mover} (hmove : Moves B s m t) (hm : m ≠ .dropReceiver) :
    t.receiver = s.receiver := by
  cases hmove with
  | @effect e effects hw => cases e <;> rfl
  | release ho ht => exact (outbound_dropHeld s).2
  | releaseIdle ho ht => exact (outbound_dropHeld s).2
  | dropReceiver => exact absurd rfl hm
  | _ => rfl

/-- A thread that is still held is started. -/
theorem callStep_start {a : Option Answer} (ho : s.owner = .ready a) (hw : s.worker = .held)
    (refusal : Option String) :
    s.callStep (.start refusal) =
      some { s with phase := .running, owner := .spawning refusal } := by
  rw [callStep, ho]
  simp only [hw, if_true]

/-- A command is submitted as long as the stop flag is not set. -/
theorem callStep_submit {a : Option Answer} (ho : s.owner = .ready a) (hs : s.stop = false)
    (c : Command) : s.callStep (.submit c) = some { s with owner := .numbering c } := by
  rw [callStep, ho]
  simp only [hs, Bool.false_eq_true, if_false]

/-- A pipeline is shut down whenever its owner asks for it. -/
theorem callStep_shutdown {a : Option Answer} (ho : s.owner = .ready a) :
    s.callStep .shutdown = some { s with stop := true, owner := .releasing } := by
  rw [callStep, ho]

end System

namespace Flow

variable {f : Flow}

/-- Marking a frame as sent touches neither what is generated nor what is suppressed, and with
acknowledgements it lets no frame through that was held back. -/
theorem frameSent_holds (hf : f.IsConsistent) (id : UInt32) :
    (f.frameSent id).generated = f.generated ∧ (f.frameSent id).suppressed = f.suppressed ∧
      (f.mayDispatch = false → (f.frameSent id).mayDispatch = false) := by
  have hkept : (f.frameSent id).generated = f.generated ∧
      (f.frameSent id).suppressed = f.suppressed := by
    grind [frameSent, recompute]
  refine ⟨hkept.1, hkept.2, fun hheld => ?_⟩
  obtain ⟨hsuppressed, hfull⟩ : f.suppressed = false ∧ ¬ f.inFlight < f.maxInFlight := by
    simpa [mayDispatch] using hheld
  obtain ⟨hconsistent, hprecedes⟩ := hf.use (.sent id)
  have hbefore := hf.inFlight_add hsuppressed
  have hafter := hconsistent.inFlight_add (hkept.2.trans hsuppressed)
  have hsent := UInt32.le_iff_toNat_le.mp hprecedes.sent_le
  have hsame : (f.use (.sent id)).acknowledged = f.acknowledged :=
    (frameSent_keeps id hsuppressed).2.1
  have hmax : (f.use (.sent id)).maxInFlight = f.maxInFlight := hprecedes.maxInFlight_eq
  rw [hsame] at hafter
  rw [UInt32.lt_iff_toNat_lt] at hfull
  have hlt : ¬ (f.use (.sent id)).inFlight < (f.use (.sent id)).maxInFlight := by
    rw [UInt32.lt_iff_toNat_lt, hmax]
    omega
  show ((f.use (.sent id)).suppressed || _) = false
  rw [show (f.use (.sent id)).suppressed = false from hkept.2.trans hsuppressed, Bool.false_or]
  exact decide_eq_false hlt

end Flow

/-- A counter below another counts on without wrapping around. -/
theorem toNat_add_one_of_lt {n m : UInt32} (h : n < m) : (n + 1).toNat = n.toNat + 1 := by
  rw [UInt32.toNat_add]
  exact Nat.mod_eq_of_lt (Nat.lt_of_le_of_lt (UInt32.lt_iff_toNat_lt.mp h) m.toNat_lt)

namespace Probe

/-- Whether frames may be in flight at all, or nobody waits for acknowledgements. -/
def Config.Allows (c : Config) : Prop :=
  c.workload.ackOff = true ∨ 0 < c.pipeline.maxFramesInFlight

namespace Runner

variable {β : Type}

/-- Whether the pipeline serves a runner that is in no call. -/
def Idles (r : Runner β) : Prop := r.system.IsServing ∧ ∃ a, r.system.owner = .ready a

/-- Whether a runner has submitted all frames, or may have been stopped early. -/
def Enough (early : Prop) (r : Runner β) : Prop :=
  r.submitted = r.config.workload.frames ∨ early

/-- Whether a runner has submitted its frames and shuts its pipeline down. -/
structure Closes (early : Prop) (r : Runner β) : Prop where
  stop_eq : r.system.stop = true
  enough : r.Enough early

/-- Where the call that submits a frame is. -/
def Submitting (r : Runner β) (index : Nat) : Owner → Prop
  | .numbering c | .marking _ c | .queueing _ c => c = r.frameCommand index
  | .ready a => ∃ seq, a = some (.submitted seq)
  | _ => False

/-- What holds of a runner at a place. -/
def At (early : Prop) (r : Runner β) : RunnerPlace → Prop
  | .opening | .launching =>
    r.system.owner = .ready none ∧ r.system.worker = .held ∧ r.submitted = 0
  | .starting =>
    (r.system.owner = .spawning none ∨
      r.system.IsServing ∧ r.system.owner = .ready (some .started)) ∧ r.submitted = 0
  | .looping i => r.Idles ∧ r.submitted.toNat = i ∧ i ≤ r.config.workload.frames.toNat
  | .gating i => r.Idles ∧ r.submitted.toNat = i ∧ i < r.config.workload.frames.toNat
  | .waiting i =>
    r.Idles ∧ r.submitted.toNat = i ∧ i < r.config.workload.frames.toNat ∧
      r.system.flow.mayDispatch = false
  | .submitting i =>
    r.system.IsServing ∧ r.submitted.toNat = i ∧ i < r.config.workload.frames.toNat ∧
      r.config.Allows ∧ r.Submitting i r.system.owner
  | .finishing => r.Idles ∧ r.Enough early
  | .awaiting => r.Idles ∧ r.Enough early ∧ r.tally.completed < r.submitted
  | .stopping => r.Closes early ∧ ∀ e, r.system.owner ≠ .ready (some (.refused e))
  | .draining => r.Closes early ∧ ∃ a, r.system.owner = .ready a
  | .acknowledging _ next => (∃ p : RunnerPlace, p.onResult? = some next) ∧ r.At early next
  | .abandoning _ => False
  | .done report =>
    r.Closes early ∧ (∃ a, r.system.owner = .ready a) ∧ r.system.outbound = [] ∧
      report = .ok r.report

/-- What holds of the pipeline of a runner, wherever the runner is. -/
structure IsSound (r : Runner β) : Prop where
  lawful : r.system.IsLawful
  ne_crashed : r.system.worker ≠ .gone true
  ordered : r.system.flow.IsOrdered
  max_eq : r.system.flow.maxInFlight = r.config.pipeline.maxFramesInFlight

variable {B : Backend β} {early : Prop} {r t : Runner β}

/-- A pipeline that was shut down is over. -/
theorem Closes.isOver (h : r.Closes early) (hlawful : r.system.IsLawful)
    (ho : ∃ a, r.system.owner = .ready a) : r.system.IsOver := by
  obtain ⟨a, ho⟩ := ho
  exact hlawful.relies_of ho h.stop_eq

/-- What holds at a place keeps to it when the encode thread moves on. -/
theorem At.worker {s : System β} {p : RunnerPlace} (h : r.At early p) (hr : r.IsSound)
    (hcrash : s.worker ≠ .gone true) (hmove : System.Moves B r.system .worker s) :
    ({ r with system := s }).At early p := by
  have howner : s.owner = r.system.owner := System.owner_eq_of_worker hmove
  have hidles : r.Idles → ({ r with system := s }).Idles := fun ⟨hserving, ho⟩ =>
    ⟨hserving.worker hr.lawful hmove hcrash, howner ▸ ho⟩
  have hcloses : r.Closes early → ({ r with system := s }).Closes early := fun h =>
    ⟨(System.stop_eq_of_worker hmove).1.trans h.stop_eq, h.enough⟩
  induction p with
  | opening => exact absurd h.2.1 (System.worker_ne_held hmove)
  | launching => exact absurd h.2.1 (System.worker_ne_held hmove)
  | starting =>
    obtain ⟨ho | ⟨hserving, ho⟩, hzero⟩ := h
    · exact absurd (hr.lawful.relies_of ho).2 (System.worker_ne_held hmove)
    · exact ⟨.inr ⟨hserving.worker hr.lawful hmove hcrash, howner.trans ho⟩, hzero⟩
  | looping i => exact ⟨hidles h.1, h.2⟩
  | gating i => exact ⟨hidles h.1, h.2⟩
  | waiting i =>
    obtain ⟨hidle, hi, hlt, hheld⟩ := h
    refine ⟨hidles hidle, hi, hlt, ?_⟩
    rcases System.flow_worker hmove with hflow | ⟨id, hflow⟩
    · rw [hflow]
      exact hheld
    · rw [hflow]
      exact (Flow.frameSent_holds hr.ordered.toIsConsistent id).2.2 hheld
  | submitting i =>
    obtain ⟨hserving, hi, hlt, hallows, hsubmitting⟩ := h
    refine ⟨hserving.worker hr.lawful hmove hcrash, hi, hlt, hallows, ?_⟩
    rw [howner]
    exact hsubmitting
  | finishing => exact ⟨hidles h.1, h.2⟩
  | awaiting => exact ⟨hidles h.1, h.2⟩
  | stopping => exact ⟨hcloses h.1, howner ▸ h.2⟩
  | draining => exact ⟨hcloses h.1, howner ▸ h.2⟩
  | acknowledging id next ih => exact ⟨h.1, ih h.2⟩
  | abandoning e => exact h
  | done report =>
    have hover := h.1.isOver hr.lawful h.2.1
    exact absurd ((System.not_gone_of_worker hmove).symm.trans hover.isGone) Bool.false_ne_true

/-- A runner whose pipeline serves it has not lost its encode thread. -/
theorem Idles.closed_eq (h : r.Idles) : r.system.closed = false := by
  rw [System.closed, h.1.isGone_eq, Bool.false_and]

/-- Where a runner is in a call, the call was not refused. -/
theorem At.ne_refused {p : RunnerPlace} (h : r.At early p) (hp : p.inCall = true)
    (e : PipelineError) : r.system.owner ≠ .ready (some (.refused e)) := by
  intro ho
  cases p with
  | starting =>
    obtain ⟨hs | ⟨-, hs⟩, -⟩ := h <;> cases hs.symm.trans ho
  | submitting i =>
    have hsubmitting := h.2.2.2.2
    rw [ho] at hsubmitting
    obtain ⟨seq, hseq⟩ := hsubmitting
    cases hseq
  | stopping => exact h.2 e ho
  | abandoning e => exact h
  | _ => cases hp

/-- Only the call that submits a frame marks and queues one. -/
theorem At.not_submitting {p : RunnerPlace} (h : r.At early p) (hlawful : r.system.IsLawful)
    (hp : p.inCall = true) (hne : ∀ i, p ≠ .submitting i) (seq : Nat) (c : Command) :
    r.system.owner ≠ .marking seq c ∧ r.system.owner ≠ .queueing seq c := by
  cases p with
  | starting => obtain ⟨ho | ⟨-, ho⟩, -⟩ := h <;> simp [ho]
  | submitting i => exact absurd rfl (hne i)
  | stopping =>
    have hstop := h.1.stop_eq
    constructor <;>
    · intro ho
      exact Bool.false_ne_true ((hlawful.relies_of ho).symm.trans hstop)
  | abandoning e => exact h.elim
  | _ => cases hp

/-- A call that a runner makes leads to what holds within it. -/
theorem At.call {c : Call} {next : RunnerPlace} {s : System β} (h : r.At early r.place)
    (hallows : ∀ i, r.place = .gating i → r.system.flow.mayDispatch = true → r.config.Allows)
    (hc : r.Calls c next) (hs : r.system.callStep c = some s) :
    ({ r with system := s, place := next }).At early next := by
  cases hc with
  | start hp =>
    rw [hp] at h
    obtain ⟨ho, hw, hzero⟩ := h
    cases (System.callStep_start ho hw none).symm.trans hs
    exact ⟨.inl rfl, hzero⟩
  | @dispatch i hp hf =>
    have hmay := hallows i hp hf
    rw [hp] at h
    obtain ⟨⟨hserving, a, ho⟩, hi, hlt⟩ := h
    cases (System.callStep_submit ho hserving.stop_eq _).symm.trans hs
    exact ⟨⟨hserving.stop_eq, hserving.ne_held, hserving.isGone_eq⟩, hi, hlt, hmay, rfl⟩
  | dispatchClosed hp hclosed =>
    rw [hp] at h
    exact absurd (h.1.closed_eq.symm.trans hclosed) Bool.false_ne_true
  | stop hp ht =>
    rw [hp] at h
    obtain ⟨⟨hserving, a, ho⟩, henough⟩ := h
    cases (System.callStep_shutdown ho).symm.trans hs
    exact ⟨⟨rfl, henough⟩, nofun⟩
  | stopClosed hp hclosed =>
    rw [hp] at h
    exact absurd (h.1.closed_eq.symm.trans hclosed) Bool.false_ne_true
  | abandon hp ho => exact absurd ho (h.ne_refused hp _)

/-- The next step of the call that submits a frame. -/
inductive SubmitsOn (r : Runner β) (i : Nat) : System β → Prop
  | number (ho : r.system.owner = .numbering (r.frameCommand i)) :
      SubmitsOn r i { r.system with
        nextSeq := r.system.nextSeq + 1
        owner := .marking r.system.nextSeq (r.frameCommand i) }
  | mark {seq : Nat} (ho : r.system.owner = .marking seq (r.frameCommand i)) :
      SubmitsOn r i { r.system with
        flow := r.system.flow.frameGenerated (UInt32.ofNat i + 1)
        owner := .queueing seq (r.frameCommand i) }
  | queue {seq : Nat} (ho : r.system.owner = .queueing seq (r.frameCommand i)) :
      SubmitsOn r i ({ r.system with
        inbound := r.system.inbound ++ [Message.command seq (r.frameCommand i)] }.answer
          (.submitted seq))

/-- The call that submits a frame goes on by one of these steps. -/
theorem submitsOn_of_ownerStep {i : Nat} {s : System β}
    (hsubmitting : r.Submitting i r.system.owner) (hserving : r.system.IsServing)
    (hs : r.system.ownerStep B = some s) : r.SubmitsOn i s := by
  have hmove := System.moves_of_ownerStep hs
  cases hmove with
  | number ho =>
    rw [ho] at hsubmitting
    obtain rfl := hsubmitting
    exact .number ho
  | mark ho =>
    rw [ho] at hsubmitting
    obtain rfl := hsubmitting
    exact .mark ho
  | queueGone ho hw => exact absurd (hserving.isGone_eq.symm.trans hw) Bool.false_ne_true
  | queue ho hw =>
    rw [ho] at hsubmitting
    obtain rfl := hsubmitting
    exact .queue ho
  | spawn ho => rw [ho] at hsubmitting; exact hsubmitting.elim
  | spawnRefused ho => rw [ho] at hsubmitting; exact hsubmitting.elim
  | release ho ht => rw [ho] at hsubmitting; exact hsubmitting.elim
  | releaseIdle ho ht => rw [ho] at hsubmitting; exact hsubmitting.elim
  | wake ho => rw [ho] at hsubmitting; exact hsubmitting.elim
  | join ho hw => rw [ho] at hsubmitting; exact hsubmitting.elim

/-- A shutdown without a crash is not refused. -/
theorem ne_refused_of_ownerStep {s s' : System β} (hs : s.ownerStep B = some s')
    (hlawful : s.IsLawful) (hstop : s.stop = true) (hcrash : s.worker ≠ .gone true)
    (e : PipelineError) : s'.owner ≠ .ready (some (.refused e)) := by
  have hmove := System.moves_of_ownerStep hs
  have hrelies := hlawful.relies
  cases hmove with
  | @join crashed ho hw =>
    cases crashed with
    | true => exact absurd hw hcrash
    | false => simp [System.answer]
  | queueGone ho hw =>
    rw [ho] at hrelies
    exact absurd (hrelies.symm.trans hstop) Bool.false_ne_true
  | spawnRefused ho =>
    rw [ho] at hrelies
    exact absurd (hrelies.1.symm.trans hstop) Bool.false_ne_true
  | _ => simp [System.answer]

/-- What holds within a call keeps to hold when the call goes on. -/
theorem At.owner {s : System β} (h : r.At early r.place) (hr : r.IsSound)
    (hp : r.place.inCall = true) (hs : r.system.ownerStep B = some s) :
    ({ r with system := s }).At early r.place := by
  cases hplace : r.place with
  | starting =>
    rw [hplace] at h
    obtain ⟨ho | ⟨hserving, ho⟩, hzero⟩ := h
    · have hrelies := hr.lawful.relies_of ho
      rw [System.ownerStep, ho] at hs
      cases hs
      exact ⟨.inr ⟨⟨hrelies.1, by simp [System.answer], rfl⟩, rfl⟩, hzero⟩
    · rw [System.ownerStep, ho] at hs
      cases hs
  | submitting i =>
    rw [hplace] at h
    obtain ⟨hserving, hi, hlt, hallows, hsubmitting⟩ := h
    obtain ⟨hstop, hheld, hgone⟩ := hserving
    cases submitsOn_of_ownerStep hsubmitting ⟨hstop, hheld, hgone⟩ hs with
    | number ho => exact ⟨⟨hstop, hheld, hgone⟩, hi, hlt, hallows, rfl⟩
    | mark ho => exact ⟨⟨hstop, hheld, hgone⟩, hi, hlt, hallows, rfl⟩
    | queue ho => exact ⟨⟨hstop, hheld, hgone⟩, hi, hlt, hallows, _, rfl⟩
  | stopping =>
    rw [hplace] at h
    obtain ⟨⟨hstop, henough⟩, -⟩ := h
    have hkept := System.stop_eq_of_ne_call (System.moves_of_ownerStep hs) (by simp)
    exact ⟨⟨hkept.trans hstop, henough⟩,
      ne_refused_of_ownerStep hs hr.lawful hstop hr.ne_crashed⟩
  | abandoning e =>
    rw [hplace] at h
    exact h.elim
  | _ =>
    rw [hplace] at hp
    cases hp

/-- What holds where a runner takes a result leads to what holds where it goes on. -/
theorem At.receive {next : RunnerPlace} {result : EncodeResult} {s : System β}
    (h : r.At early r.place) (hp : r.place.onResult? = some next)
    (hs : r.system.receive = some (result, s)) :
    (({ r with system := s }).record result next).At early
      (({ r with system := s }).record result next).place := by
  have hnext : (({ r with system := s }).record result next).At early next := by
    obtain ⟨rest, -, rfl⟩ := System.outbound_of_receive hs
    cases hplace : r.place with
    | waiting i =>
      rw [hplace] at h hp
      cases hp
      obtain ⟨⟨⟨hstop, hheld, hgone⟩, ho⟩, hi, hlt, -⟩ := h
      exact ⟨⟨⟨hstop, hheld, hgone⟩, ho⟩, hi, hlt⟩
    | awaiting =>
      rw [hplace] at h hp
      cases hp
      obtain ⟨⟨⟨hstop, hheld, hgone⟩, ho⟩, henough, -⟩ := h
      exact ⟨⟨⟨hstop, hheld, hgone⟩, ho⟩, henough⟩
    | draining =>
      rw [hplace] at h hp
      cases hp
      obtain ⟨⟨hstop, henough⟩, ho⟩ := h
      exact ⟨⟨hstop, henough⟩, ho⟩
    | _ =>
      rw [hplace] at hp
      cases hp
  rcases place_record { r with system := s } result next with hplace | ⟨id, hplace⟩
  · rw [hplace]
    exact hnext
  · rw [hplace]
    exact ⟨⟨r.place, hp⟩, hnext⟩

/-- What holds before an acknowledgement holds after it. -/
theorem At.acknowledge {id : UInt32} {next : RunnerPlace}
    (h : r.At early (.acknowledging id next)) :
    ({ r with system := r.system.useFlow (.acknowledged id), place := next }).At early next := by
  obtain ⟨⟨p, hp⟩, hnext⟩ := h
  cases p with
  | waiting i =>
    cases hp
    obtain ⟨⟨⟨hstop, hheld, hgone⟩, ho⟩, hi, hlt⟩ := hnext
    exact ⟨⟨⟨hstop, hheld, hgone⟩, ho⟩, hi, hlt⟩
  | awaiting =>
    cases hp
    obtain ⟨⟨⟨hstop, hheld, hgone⟩, ho⟩, henough⟩ := hnext
    exact ⟨⟨⟨hstop, hheld, hgone⟩, ho⟩, henough⟩
  | draining =>
    cases hp
    obtain ⟨⟨hstop, henough⟩, ho⟩ := hnext
    exact ⟨⟨hstop, henough⟩, ho⟩
  | _ => cases hp

/-- The steps of a runner that touch nothing shared lead to what holds where they lead. -/
theorem At.pass (h : r.At early r.place) (hrunning : r.running = true ∨ early)
    (ht : r.Passes t) : t.At early t.place := by
  cases ht with
  | started hp ho ha =>
    rw [hp] at h
    obtain ⟨hs | ⟨hserving, hs⟩, hzero⟩ := h
    · cases hs.symm.trans ho
    · exact ⟨⟨hserving, _, hs⟩, congrArg UInt32.toNat hzero, Nat.zero_le _⟩
  | next hp hi =>
    rw [hp] at h
    exact ⟨h.1, h.2.1, hi⟩
  | @leave i hp hi =>
    rw [hp] at h
    obtain ⟨hidle, hsubmitted, hle⟩ := h
    refine ⟨hidle, ?_⟩
    rcases Nat.lt_or_eq_of_le hle with hlt | heq
    · rcases hrunning with hrunning | hearly
      · exact absurd ((hi hlt).symm.trans hrunning) Bool.false_ne_true
      · exact .inr hearly
    · exact .inl (UInt32.toNat_inj.mp (hsubmitted.trans heq))
  | throttle hp hf =>
    rw [hp] at h
    exact ⟨h.1, h.2.1, h.2.2, hf⟩
  | @submitted i a hp ho ha =>
    rw [hp] at h
    obtain ⟨hserving, rfl, hlt, -, -⟩ := h
    exact ⟨⟨hserving, a, ho⟩, toNat_add_one_of_lt (UInt32.lt_iff_toNat_lt.mpr hlt), hlt⟩
  | lack hp ht =>
    rw [hp] at h
    exact ⟨h.1, h.2, ht⟩
  | stopped hp ho ha =>
    rw [hp] at h
    exact ⟨⟨h.1.stop_eq, h.1.enough⟩, _, ho⟩
  | finish hp hs =>
    rw [hp] at h
    exact ⟨⟨h.1.stop_eq, h.1.enough⟩, h.2, hs, rfl⟩
  | abandoned hp ho =>
    rw [hp] at h
    exact h.elim

/-- An early stop from outside changes nothing of what holds at a place. -/
theorem At.halt {p : RunnerPlace} (h : r.At early p) :
    ({ r with running := false }).At early p := by
  have hcloses : r.Closes early → ({ r with running := false }).Closes early :=
    fun h => ⟨h.stop_eq, h.enough⟩
  induction p with
  | stopping => exact h.imp_left hcloses
  | draining => exact h.imp_left hcloses
  | done report => exact h.imp_left hcloses
  | acknowledging id next ih => exact h.imp_right ih
  | _ => exact h

/-- What holds where a runner is leads to what holds where it goes, whatever move it makes. -/
theorem At.move {m : Option Mover} (h : r.At early r.place) (hr : r.IsSound) (ht : t.IsSound)
    (hrunning : (∀ report, r.place ≠ .done report) → r.running = true ∨ early)
    (hallows : ∀ i, r.place = .gating i → r.system.flow.mayDispatch = true → r.config.Allows)
    (hmove : r.Moves B early m t) : t.At early t.place := by
  cases hmove with
  | opening hp =>
    rw [hp] at h
    exact h
  | call hc hs => exact h.call hallows hc hs
  | owner hp hs => exact h.owner hr hp hs
  | receive hp hs => exact h.receive hp hs
  | acknowledge hp =>
    rw [hp] at h
    exact h.acknowledge
  | worker hs => exact h.worker hr ht.ne_crashed (System.moves_of_workerStep hs)
  | pass ht =>
    refine h.pass (hrunning fun report hplace => ?_) ht
    cases ht <;> simp_all
  | halt hearly => exact h.halt

end Runner

end Probe

end FrameEncoder
