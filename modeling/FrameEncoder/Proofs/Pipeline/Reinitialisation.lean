import FrameEncoder.Engine.Script
import FrameEncoder.Proofs.Backend.Creations
import FrameEncoder.Proofs.Pipeline.Completion
import FrameEncoder.Proofs.Pipeline.EffectTrace

/-!
# What a pipeline tells of its contexts

The results of a command that was encoded bear what became of the contexts during its encode call,
and the total of context creations counts such calls. A command that was skipped or failed says
nothing of the contexts, whatever its call did to them, and is not counted: a context it created
has been created unnoticed.
-/

namespace FrameEncoder

variable {β : Type}

/-- Whether a command was encoded. -/
def Dealt.isEncoded (d : Dealt β) : Bool := d.results.all EncodeResult.isEncoded

/-- What effects tell of the contexts: the flags on their results, and whether a creation is
counted. -/
structure Tells (effects : List Effect) (flags : ContextFlags) : Prop where
  flags_eq : ∀ r ∈ sentBy effects, r.encodeFlags = flags
  count_eq : effects.count .countReinit = if flags.created then 1 else 0

/-- Published results alone count no creation, and their flags are what is told. -/
theorem tells_publish {results : List EncodeResult}
    (hflags : ∀ r ∈ results, r.encodeFlags = .none) : Tells (results.flatMap publish) .none := by
  refine ⟨?_, count_flatMap_publish (by simp) results⟩
  rw [sentBy_flatMap_publish]
  exact hflags

/-- An empty result tells nothing of the contexts. -/
theorem tells_emptyResult (config : PipelineConfig) (e : Envelope) (status : EncodeStatus) :
    Tells (publish (emptyResult config e status)) .none := by
  have hflags : ∀ r ∈ [emptyResult config e status], r.encodeFlags = .none := by
    intro r hr
    rw [List.mem_singleton.mp hr]
    rfl
  have htells := tells_publish hflags
  rwa [List.flatMap_singleton] at htells

/-- Counting anything but a creation tells nothing. -/
theorem Tells.cons {effects : List Effect} {flags : ContextFlags} (h : Tells effects flags)
    {count : Effect} (hsilent : count.sent? = none) (hcount : count ≠ .countReinit) :
    Tells (count :: effects) flags := by
  have hsent : sentBy (count :: effects) = sentBy effects := List.filterMap_cons_none hsilent
  exact ⟨hsent ▸ h.flags_eq, (List.count_cons_of_ne hcount).trans h.count_eq⟩

/-- Coded output tells of the contexts by its flags. -/
theorem tells_codedResults (config : PipelineConfig) (e : Envelope) (dest : ByteArray)
    (length : Nat) (flags : ContextFlags) :
    Tells ((if flags.created then [.countReinit] else []) ++
      (codedResults config e dest length flags).flatMap publish) flags := by
  have hflags : ∀ r ∈ codedResults config e dest length flags, r.encodeFlags = flags := by
    intro r hr
    obtain ⟨i, hi, rfl⟩ := List.mem_mapIdx.mp hr
    rfl
  constructor
  · rw [sentBy_counted]
    exact hflags
  · rw [List.count_append, count_flatMap_publish (by simp)]
    split <;> rfl

/-- The flags a reply bears, none unless it is a success. -/
def EncodeReply.flags : EncodeReply → ContextFlags
  | .done o => o.flags
  | _ => .none

/-- What a reply leads to tells of the contexts by the flags of the reply. -/
theorem tells_effectsOfReply {config : PipelineConfig} {e : Envelope} {dest : ByteArray}
    {reply : EncodeReply} {effects : List Effect}
    (h : effectsOfReply config e dest reply = some effects) : Tells effects reply.flags := by
  unfold effectsOfReply at h
  split at h
  · obtain rfl := Option.some.inj h
    exact tells_codedResults ..
  · obtain rfl := Option.some.inj h
    exact (tells_emptyResult ..).cons rfl (by simp)
  · obtain rfl := Option.some.inj h
    exact (tells_emptyResult ..).cons rfl (by simp)
  · cases h

/-- The results of a reply are encoded if and only if it is a success. -/
theorem isEncoded_effectsOfReply {config : PipelineConfig} {e : Envelope} {dest : ByteArray}
    {reply : EncodeReply} {effects : List Effect}
    (h : effectsOfReply config e dest reply = some effects) :
    (sentBy effects).all EncodeResult.isEncoded = true ↔ ∃ o, reply = .done o := by
  unfold effectsOfReply at h
  split at h
  · next o =>
    obtain rfl := Option.some.inj h
    refine ⟨fun _ => ⟨o, rfl⟩, fun _ => ?_⟩
    rw [sentBy_counted, List.all_eq_true]
    intro r hr
    obtain ⟨i, hi, rfl⟩ := List.mem_mapIdx.mp hr
    rfl
  · obtain rfl := Option.some.inj h
    have hsent : sentBy (.countSkipped :: publish (emptyResult config e .skipped)) =
        [emptyResult config e .skipped] := sentBy_publish _
    rw [hsent]
    exact ⟨nofun, nofun⟩
  · next error _ =>
    obtain rfl := Option.some.inj h
    have hsent : sentBy (.countFailed :: publish (emptyResult config e (.failed error))) =
        [emptyResult config e (.failed error)] := sentBy_publish _
    rw [hsent]
    exact ⟨nofun, nofun⟩
  · cases h

namespace H264Backend

variable {P σ : Type} {B : H264Backend P σ} {config : PipelineConfig}

/-- The effects of a command tell what became of the contexts if the command was encoded, and
nothing otherwise. -/
theorem tells_of_isBy [Inhabited P] {d : Dealt (H264State P σ)} (hs : d.before.IsNumbered)
    (h : d.IsBy B.toBackend config) :
    Tells d.effects (if d.isEncoded then H264State.changes d.before d.after else .none) := by
  obtain ⟨dest, heffects, hafter⟩ := h
  rcases processCommand_cases heffects with
    ⟨error, -, hrefused, hsame⟩ | ⟨u, e, r, -, hreply, hbackend⟩
  · have hnot : d.isEncoded = false := by
      rw [Dealt.isEncoded, Dealt.results, hrefused, sentBy_publish]
      rfl
    rw [hnot, hrefused]
    exact tells_emptyResult ..
  · have hchanges : d.after = (B.encode d.before r dest).2.2 := hafter.symm.trans hbackend
    have htells : Tells d.effects (B.encode d.before r dest).1.flags := tells_effectsOfReply hreply
    have hencoded : d.isEncoded = true ↔ ∃ o, (B.encode d.before r dest).1 = .done o :=
      isEncoded_effectsOfReply hreply
    split
    · next hyes =>
      obtain ⟨o, ho⟩ := hencoded.mp hyes
      rw [hchanges, ← flags_eq_of_done hs ho]
      rwa [ho] at htells
    · next hno =>
      have hflags : (B.encode d.before r dest).1.flags = .none := by
        cases hr : (B.encode d.before r dest).1 with
        | done o => exact absurd (hencoded.mpr ⟨o, hr⟩) hno
        | _ => rfl
      rwa [hflags] at htells

/-- The backend is in a state it can be in before each command that is dealt with. -/
theorem reachable_before [Inhabited P] (B : H264Backend P σ) (config : PipelineConfig) (state : σ)
    (schedule : List Mover) :
    ∀ d ∈ ((System.new config (fresh state)).moves B.toBackend schedule).flatMap Move.dealt,
      B.Reachable d.before := by
  refine (System.run_induction (P := fun history s => B.Reachable s.backend ∧
    ∀ d ∈ history.flatMap Move.dealt, B.Reachable d.before)
    ⟨.fresh state, fun _ hd => absurd hd List.not_mem_nil⟩ ?_ schedule).2
  rintro history s m t ⟨hs, hbefore⟩ hnext
  have hmove := System.moves_of_next hnext
  refine ⟨reachable_move hs hmove, ?_⟩
  rw [List.flatMap_append, List.flatMap_singleton, List.forall_mem_append]
  refine ⟨hbefore, fun d hd => ?_⟩
  rw [(System.isBy_of_move hmove d hd).2.1]
  exact hs

/-- Creations are counted command by command. -/
theorem count_flatMap {ds : List (Dealt (H264State P σ))}
    (h : ∀ d ∈ ds,
      Tells d.effects (if d.isEncoded then H264State.changes d.before d.after else .none)) :
    (ds.flatMap Dealt.effects).count .countReinit =
      ds.countP fun d => d.isEncoded && H264State.created d.before d.after := by
  induction ds with
  | nil => rfl
  | cons d ds ih =>
    have hrest := ih fun d' hd' => h d' (List.mem_cons_of_mem d hd')
    have hcount := (h d List.mem_cons_self).count_eq
    rw [List.flatMap_cons, List.count_append, hcount, hrest, List.countP_cons, Nat.add_comm]
    cases d.isEncoded <;> rfl

/-- Along every schedule, the results of a command bear what became of the contexts if the command
was encoded and nothing otherwise, and the creations counted are those of commands that were
encoded. -/
theorem reinits_run [Inhabited P] (B : H264Backend P σ) (config : PipelineConfig) (state : σ)
    (schedule : List Mover) :
    let start := System.new config (fresh state)
    let history := start.moves B.toBackend schedule
    let s := start.run B.toBackend schedule
    let dealt := history.flatMap Move.dealt
    history.flatMap Move.published ++ sentBy s.worker.effects = dealt.flatMap Dealt.results ∧
    (∀ d ∈ dealt, ∀ r ∈ d.results, r.encodeFlags =
      if d.isEncoded then H264State.changes d.before d.after else .none) ∧
    s.stats.reinits + s.worker.effects.count .countReinit =
      dealt.countP fun d => d.isEncoded && H264State.created d.before d.after := by
  intro start history s dealt
  have htraced := traced_run (B := B.toBackend) (account_new config (fresh state)).1 schedule
  have hseen : dealt.flatMap Dealt.effects = history.flatMap Move.seen ++ s.worker.effects :=
    htraced.effects_eq
  have htells : ∀ d ∈ dealt,
      Tells d.effects (if d.isEncoded then H264State.changes d.before d.after else .none) :=
    fun d hd => tells_of_isBy (reachable_before B config state schedule d hd).isNumbered
      (htraced.isBy d hd)
  have hreinits : s.stats.reinits = 0 + (history.flatMap Move.seen).count .countReinit :=
    htraced.grows.reinits_eq
  refine ⟨?_, fun d hd => (htells d hd).flags_eq, ?_⟩
  · rw [published_flatMap, sentBy, sentBy, ← List.filterMap_append, ← hseen,
      List.filterMap_flatMap]
    rfl
  · rw [hreinits, Nat.zero_add, ← List.count_append, ← hseen, count_flatMap htells]

/-- A first frame that is skipped leaves a context behind that no result and no total tells of. -/
example :
    let start := System.new default (fresh ⟨[], [], .skip⟩)
    let backend := toBackend ⟨.openH264, Script.engine Unit, .const ()⟩
    let schedule := [.call (.start none), .owner,
      .call (.submit (.surface
        ⟨Bytes.zeros 24, [⟨0, 0, 4, 4⟩], 0, 0, 16, 16, 4, 4, .nv12, 0, none⟩)),
      .owner, .owner, .owner] ++ List.replicate 9 .worker
    (start.run backend schedule).stats = ⟨1, 1, 0, 1, 0, 0⟩ ∧
      ((start.moves backend schedule).flatMap Move.published).map EncodeResult.encodeFlags =
        [.none] ∧
      H264State.created start.backend (start.run backend schedule).backend = true := by
  decide +kernel

end H264Backend

end FrameEncoder
