import FrameEncoder.Backend.Scripted
import FrameEncoder.Proofs.Pipeline.Completion
import FrameEncoder.Proofs.Pipeline.Lifecycle

/-!
# Encode threads that do not crash

The encode thread crashes only in an encode call of its backend. So it never does if no encode call
crashes in any state the backend can get into by such calls, whatever commands it is given.
-/

namespace FrameEncoder

namespace Backend

variable {β : Type}

/-- The states a backend gets into by encode calls. -/
inductive Reached (B : Backend β) (start : β) : β → Prop
  | start : Reached B start start
  | encode {s : β} (r : EncodeRequest) (dest : ByteArray) :
      Reached B start s → Reached B start (B.encode s r dest).2.2

/-- Whether no encode call crashes from a state on. -/
def NeverCrashes (B : Backend β) (start : β) : Prop :=
  ∀ s, B.Reached start s → ∀ r dest, (B.encode s r dest).1 ≠ .crashed

end Backend

namespace System

variable {β : Type} {B : Backend β} {s t : System β} {start : β}

/-- Dealing with a command leaves a backend in a state that encode calls get it into. -/
theorem reached_processCommand {backend : β} (h : B.Reached start backend)
    (config : PipelineConfig) (dest : ByteArray) (seq : Nat) (c : Command) :
    B.Reached start (processCommand B config backend dest seq c).backend :=
  backend_processCommand (fun _ r dest hs => hs.encode r dest) h config dest seq c

/-- What holds of an encode thread and its backend as long as the thread is there: the thread did
not crash, and the backend was not released. -/
def IsIntact (B : Backend β) (start : β) (s : System β) : Prop :=
  s.worker ≠ .gone true ∧ (s.worker.isGone = false → B.Reached start s.backend)

/-- A move of the encode thread keeps it and its backend intact if no encode call crashes. -/
theorem isIntact_worker (hB : B.NeverCrashes start) (h : s.IsIntact B start)
    (hmove : Moves B s .worker t) : t.IsIntact B start := by
  have hreached := h.2 (not_gone_of_worker hmove)
  cases hmove with
  | process hw hp => exact ⟨by simp, fun _ => reached_processCommand hreached ..⟩
  | crash hw hp => exact absurd hp (Option.isSome_iff_ne_none.mp
      (isSome_effects_processCommand (hB _ hreached) ..))
  | @effect e effects hw => cases e <;> exact ⟨by simp, fun _ => hreached⟩
  | stopLooping hw hs => exact ⟨by simp [endWorker], by simp [endWorker, Worker.isGone]⟩
  | stopRechecking hw hs => exact ⟨by simp [endWorker], by simp [endWorker, Worker.isGone]⟩
  | _ => exact ⟨by simp, fun _ => hreached⟩

/-- Letting go of a thread that never ran is no crash. -/
theorem IsIntact.dropHeld (h : s.IsIntact B start) : (s.dropHeld B).IsIntact B start := by
  unfold System.dropHeld
  split
  · exact ⟨by simp [endWorker], nofun⟩
  · exact h

/-- Every move keeps the encode thread and its backend intact if no encode call crashes. -/
theorem isIntact_move (hB : B.NeverCrashes start) (hlawful : s.IsLawful)
    (h : s.IsIntact B start) {m : Mover} (hmove : Moves B s m t) : t.IsIntact B start := by
  by_cases hm : m = .worker
  · subst hm
    exact isIntact_worker hB h hmove
  · cases hmove with
    | spawn ho =>
      have hheld := (hlawful.relies_of ho).2
      exact ⟨nofun, fun _ => h.2 (by rw [hheld]; rfl)⟩
    | spawnRefused ho => exact ⟨by simp [answer, endWorker], nofun⟩
    | release ho ht => exact h.dropHeld
    | releaseIdle ho ht => exact h.dropHeld
    | _ => first
      | exact absurd rfl hm
      | exact h

/-- No schedule crashes the encode thread of a backend whose encode calls do not crash. -/
theorem worker_run_ne_crashed (hB : B.NeverCrashes start) (config : PipelineConfig)
    (schedule : List Mover) : ((System.new config start).run B schedule).worker ≠ .gone true := by
  refine (run_induction_of (P := fun _ s => s.IsIntact B start) (I := fun _ s => s.IsLawful)
    (isLawful_run (isLawful_new config start)) ⟨nofun, fun _ => .start⟩ ?_ schedule).1
  intro _ s m t hlawful h hnext
  exact isIntact_move hB hlawful h (moves_of_next hnext)

end System

/-- The backends of an engine whose sessions never crash never do. -/
theorem H264Backend.neverCrashes {P σ : Type} [Inhabited P] {B : H264Backend P σ}
    (hE : B.engine.NeverCrashes) {start : H264State P σ} (hstart : B.Reachable start) :
    B.toBackend.NeverCrashes start := by
  intro s hs
  have hreachable : B.Reachable s := by
    induction hs with
    | start => exact hstart
    | encode r dest _ ih => exact ih.encode r dest
  exact encode_ne_crashed hE hreachable.isSound

/-- A backend that follows a script without crashes never crashes. -/
theorem ScriptedBackend.neverCrashes {start : ScriptedBackend}
    (hanswers : ∀ a ∈ start.answers, a ≠ .crash) (hrest : start.rest ≠ .crash) :
    backend.NeverCrashes start := by
  have hreply : ∀ (r : EncodeRequest) (dest : ByteArray) (a : RequestAnswer), a ≠ .crash →
      (reply r dest a).1 ≠ .crashed := by
    intro r dest a ha
    cases a with
    | crash => exact absurd rfl ha
    | fail e => nofun
    | write bytes claim flags => nofun
  intro s hs
  have hkept : (∀ a ∈ s.answers, a ≠ .crash) ∧ s.rest ≠ .crash := by
    induction hs with
    | start => exact ⟨hanswers, hrest⟩
    | @encode s r dest _ ih =>
      show (∀ a ∈ (ScriptedBackend.encode s r dest).2.2.answers, a ≠ .crash) ∧
        (ScriptedBackend.encode s r dest).2.2.rest ≠ .crash
      unfold ScriptedBackend.encode
      dsimp only
      split
      · exact ih
      · next hs => exact ⟨fun a ha => ih.1 a (hs ▸ List.mem_cons_of_mem _ ha), ih.2⟩
  intro r dest
  show (ScriptedBackend.encode s r dest).1 ≠ .crashed
  unfold ScriptedBackend.encode
  dsimp only
  split
  · exact hreply r dest _ hkept.2
  · next a _ hs => exact hreply r dest a (hkept.1 a (hs ▸ List.mem_cons_self))

end FrameEncoder
