import FrameEncoder.Proofs.Pipeline.Pacing
import FrameEncoder.Proofs.Probe.RunnerEnds

/-!
# Starvation

A runner that starves has everything back that it submitted and has acknowledged it, so no frame is
in flight, and still it may not dispatch the next one. That is so only if no frame may be in flight
at all. Then every run starves before its first frame, and stays so.
-/

namespace FrameEncoder

/-- A quiet encode thread that is not asked to stop publishes nothing and stays quiet. -/
theorem System.IsQuiet.worker {β : Type} {B : Backend β} {s t : System β} (h : s.IsQuiet)
    (hstop : s.stop = false) (hmove : Moves B s .worker t) :
    t.IsQuiet ∧ t.outbound = s.outbound ∧ t.worker.isGone = false := by
  obtain ⟨hwaiting, hhand, heffects⟩ := h
  cases hmove with
  | stopLooping hw hs => exact absurd (hstop.symm.trans hs) Bool.false_ne_true
  | stopRechecking hw hs => exact absurd (hstop.symm.trans hs) Bool.false_ne_true
  | wait hw hs =>
    rw [hw] at hwaiting
    exact ⟨⟨hwaiting, rfl, rfl⟩, rfl, rfl⟩
  | take hw hi =>
    rw [hw, hi] at hwaiting
    exact ⟨⟨hwaiting, rfl, rfl⟩, rfl, rfl⟩
  | woken hw hs =>
    rw [hw] at hwaiting
    exact ⟨⟨hwaiting, rfl, rfl⟩, rfl, rfl⟩
  | finish hw =>
    rw [hw] at hwaiting
    exact ⟨⟨hwaiting, rfl, rfl⟩, rfl, rfl⟩
  | begin hw hs =>
    rw [hw] at hwaiting
    cases hwaiting
  | count hw | process hw hp | crash hw hp =>
    rw [hw] at hhand
    cases hhand
  | effect hw =>
    rw [hw] at heffects
    cases heffects

namespace Probe

/-- Settings forbid to dispatch if no frame may be in flight and each would be acknowledged. -/
theorem Config.not_allows_iff {c : Config} :
    ¬ c.Allows ↔ c.pipeline.maxFramesInFlight = 0 ∧ c.workload.ackOff = false := by
  rw [Allows, not_or, Bool.not_eq_true, UInt32.not_lt, UInt32.le_zero_iff, and_comm]

namespace Runner

variable {β : Type} {B : Backend β} {r t : Runner β} {config : Config} {backend : β}
  {schedule : List Mover}

/-- A runner that starves is in no call, and its pipeline serves it. -/
theorem Starves.idles (h : r.Starves) (hat : r.At False r.place) : r.Idles := by
  rcases h.waits with ⟨i, hp⟩ | hp <;> rw [hp] at hat <;> exact hat.1

/-- A runner that starves has no step of its own. -/
theorem Starves.step_eq_none (h : r.Starves) : r.step B = none := by
  have hopen : ¬ r.system.closed = true := by simp [h.closed_eq]
  have hnothing : r.system.receive = none := System.receive_eq_none_iff.mpr h.outbound_eq
  rcases h.waits with ⟨i, hp⟩ | hp
  · rw [step, hp]
    exact (if_neg hopen).trans (by rw [take, hnothing]; rfl)
  · rw [step, hp]
    exact (if_neg hopen).trans (by rw [take, hnothing]; rfl)

/-- A runner that starves does so forever. -/
theorem Starves.of_step (h : r.Starves) (hat : r.At False r.place) (hstep : Step B r t) :
    t.Starves := by
  have hstop := (h.idles hat).1.stop_eq
  cases hstep with
  | runner hr => cases h.step_eq_none.symm.trans hr
  | worker hs =>
    obtain ⟨hquiet, hout, hgone⟩ := h.isQuiet.worker hstop (System.moves_of_workerStep hs)
    refine ⟨h.waits, ?_, hout.trans h.outbound_eq, hquiet⟩
    rw [System.closed, hgone, Bool.false_and]

/-- A runner that starves has everything back that it submitted. -/
theorem Reached.caughtUp_of_starves (h : Reached B False (new config backend) schedule r)
    (hB : B.NeverCrashes backend) (hstarves : r.Starves) : r.CaughtUp := by
  have hsystem := h.system_eq
  have hidle := hstarves.idles (h.keeps hB).at_place
  have hsettled : Settled ((System.new config.pipeline backend).moves B schedule) := by
    apply settled_of_idle B config.pipeline backend schedule <;> rw [← hsystem]
    · exact (h.accounts hB).receiver_eq
    · exact hstarves.outbound_eq
    · exact hidle.1.isGone_eq
    · exact hstarves.isQuiet.waiting_eq
    · exact hstarves.isQuiet.inHand_eq
    · exact hstarves.isQuiet.effects_eq
  apply h.caughtUp hB hsettled <;> rcases hstarves.waits with ⟨i, hp⟩ | hp <;> simp [hp]

/-- A runner that starves has a frame to dispatch, and none may be in flight. -/
theorem Reached.not_allows_of_starves (h : Reached B False (new config backend) schedule r)
    (hB : B.NeverCrashes backend) (hstarves : r.Starves) :
    ¬ r.config.Allows ∧ 0 < r.config.workload.frames.toNat := by
  have hcaught := h.caughtUp_of_starves hB hstarves
  have hkeeps := h.keeps hB
  have hat := hkeeps.at_place
  rcases hstarves.waits with ⟨i, hp⟩ | hp
  · rw [hp] at hat
    obtain ⟨-, -, hlt, hheld⟩ := hat
    refine ⟨?_, Nat.lt_of_le_of_lt (Nat.zero_le i) hlt⟩
    have hsuppressed := hkeeps.suppressed_eq (by simp [hp])
    rw [Flow.mayDispatch, hcaught.inFlight_eq, (h.isSound hB).max_eq, hsuppressed,
      Bool.or_eq_false_iff, decide_eq_false_iff_not] at hheld
    rintro (hoff | hmax)
    · exact Bool.false_ne_true (hheld.1.symm.trans hoff)
    · exact hheld.2 hmax
  · rw [hp] at hat
    exact absurd hcaught.completed_eq (UInt32.ne_of_lt hat.2.2)

/-- A runner with frames to dispatch of which none may be in flight is never done. -/
theorem Reached.not_done (h : Reached B False (new config backend) schedule r)
    (hB : B.NeverCrashes backend) (hallows : ¬ r.config.Allows)
    (hframes : 0 < r.config.workload.frames.toNat) (report : Except PipelineError Report) :
    r.place ≠ .done report := by
  intro hp
  have hkeeps := h.keeps hB
  have hat := hkeeps.at_place
  rw [hp] at hat
  rcases hat.1.enough with hall | hearly
  · exact hallows (hkeeps.allows (hall ▸ hframes))
  · exact hearly

/-- A runner can starve exactly if it has a frame to dispatch, but none may be in flight and each
would have to be acknowledged; and then every run comes to that. -/
theorem starves_iff (hB : B.NeverCrashes backend) (config : Config) :
    let start := new config backend
    let isThrottled := config.pipeline.maxFramesInFlight = 0 ∧ config.workload.ackOff = false ∧
      0 < config.workload.frames
    ((∃ r, Relation.ReflTransGen (Step B) start r ∧ r.Starves) ↔ isThrottled) ∧
      (Inevitable B Starves start ↔ isThrottled) := by
  intro start isThrottled
  have hthrottled : isThrottled ↔ ¬ config.Allows ∧ 0 < config.workload.frames.toNat := by
    rw [Config.not_allows_iff, and_assoc]
    rfl
  have honly : (∃ r, Relation.ReflTransGen (Step B) start r ∧ r.Starves) → isThrottled := by
    rintro ⟨r, hreachable, hstarves⟩
    obtain ⟨schedule, h⟩ : ∃ schedule, Reached B False start schedule r :=
      exists_reached hreachable
    have hconfig := h.config_eq
    exact hthrottled.mpr (hconfig ▸ h.not_allows_of_starves hB hstarves)
  have hif : isThrottled → Inevitable B Starves start := by
    intro hthrottle
    obtain ⟨hallows, hframes⟩ := hthrottled.mp hthrottle
    refine Reached.inevitable hB (fun schedule r h hrests => ?_) .start
    rcases hrests with ⟨report, hp⟩ | hstarves
    · have hconfig := h.config_eq
      exact absurd hp (h.not_done hB (hconfig ▸ hallows) (hconfig ▸ hframes) report)
    · exact hstarves
  exact ⟨⟨honly, fun h => (hif h).exists_reachable⟩, fun h => honly h.exists_reachable, hif⟩

/-- A workload under a pipeline that allows no frame in flight. -/
def noneInFlight : Config :=
  { (default : Config) with
    pipeline := { (default : PipelineConfig) with maxFramesInFlight := 0 } }

/-- A runner starves if no frame may be in flight, and never does by the default settings. -/
theorem starves_noneInFlight :
    ScriptedBackend.backend.NeverCrashes skipping ∧
      Inevitable ScriptedBackend.backend Starves (new noneInFlight skipping) ∧
      ¬ ∃ r, Relation.ReflTransGen (Step ScriptedBackend.backend) (new default skipping) r ∧
        r.Starves :=
  have hB : ScriptedBackend.backend.NeverCrashes skipping :=
    ScriptedBackend.neverCrashes nofun nofun
  have hthrottled : noneInFlight.pipeline.maxFramesInFlight = 0 ∧
      noneInFlight.workload.ackOff = false ∧ 0 < noneInFlight.workload.frames := by decide
  have hopen : (default : Config).pipeline.maxFramesInFlight ≠ 0 := by decide
  ⟨hB, (starves_iff hB noneInFlight).2.mpr hthrottled,
    fun h => hopen ((starves_iff hB default).1.mp h).1⟩

end Runner

end Probe

end FrameEncoder
