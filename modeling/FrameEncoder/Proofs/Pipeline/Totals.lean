import FrameEncoder.Backend.Scripted
import FrameEncoder.Proofs.Pipeline.Announcements
import FrameEncoder.Proofs.Pipeline.Dispatch

/-!
# The totals and the published results

Between two commands the totals are those of the published results: one last result for each
command counted, the results and their payloads, and those that tell of a skipped command. At any
other moment they may be ahead of the results, and never behind. Failures are the exception. A
command that describes no update is answered by a failed result that no total counts, so the
failures counted are fewer than the failed results by exactly those commands.
-/

namespace FrameEncoder

/-- Whether no command is dealt with in part. -/
def Worker.isBetween : Worker → Bool
  | .encoding _ _ | .publishing (_ :: _) | .gone true => false
  | _ => true

/-- Whether the command of a result was skipped. -/
def EncodeResult.isSkipped (r : EncodeResult) : Bool := r.status = .skipped

/-- Whether the command of a result failed. -/
def EncodeResult.isFailed (r : EncodeResult) : Bool :=
  match r.status with
  | .failed _ => true
  | _ => false

/-- Whether a command describes no update. -/
def Command.isMalformed (c : Command) : Bool := !c.resolve.isOk

/-- The size of a result's payload. -/
def EncodeResult.length (r : EncodeResult) : Nat := r.payload.size

/-- What the effects of commands count, read off the results they send. -/
structure Tallies (commands : List Command) (effects : List Effect) : Prop where
  last_eq : commands.length = (sentBy effects).countP EncodeResult.last
  payloads_eq : effects.filterMap Effect.payload? = (sentBy effects).map EncodeResult.length
  skipped_eq : effects.count .countSkipped = (sentBy effects).countP EncodeResult.isSkipped
  /-- Commands that describe no update fail without being counted. -/
  failed_eq : effects.count .countFailed + commands.countP Command.isMalformed =
    (sentBy effects).countP EncodeResult.isFailed

variable {β : Type} {B : Backend β} {config : PipelineConfig}

/-- A group has one last result. -/
theorem countP_last_of_isGroup {seq : Nat} {c : Command} {g : List EncodeResult}
    (h : IsGroup seq c g) : g.countP EncodeResult.last = 1 := by
  obtain ⟨init, r, rfl, hcontinues, hlast⟩ := h.exists_concat
  have hinit : init.countP EncodeResult.last = 0 :=
    List.countP_eq_zero.mpr fun q hq => by rw [hcontinues q hq]; exact Bool.false_ne_true
  rw [List.countP_append, hinit, List.countP_singleton, if_pos hlast]

/-- Publishing a result counts its payload before the result is sent. -/
theorem announces_counted_publish (r : EncodeResult) :
    Announces (some ∘ EncodeResult.length) Effect.payload? (publish r) := by
  have hcount : publish r =
      .countResult r.payload.size :: r.completedFrame.toList.map .markSent ++ [.send r] := rfl
  rw [hcount]
  apply announces_concat
  · intro e he
    rcases List.mem_cons.mp he with rfl | he
    · rfl
    · obtain ⟨id, -, rfl⟩ := List.mem_map.mp he
      rfl
  · cases r.completedFrame <;> rfl
  · rfl

/-- How a reply came out is counted for its one result if there is no output, and else for none. -/
theorem outcome_effectsOfReply {e : Envelope} {dest : ByteArray} {reply : EncodeReply}
    {effects : List Effect} (h : effectsOfReply config e dest reply = some effects) :
    effects.count .countSkipped = (sentBy effects).countP EncodeResult.isSkipped ∧
      effects.count .countFailed = (sentBy effects).countP EncodeResult.isFailed := by
  unfold effectsOfReply at h
  split at h
  · next outcome =>
    obtain rfl := Option.some.inj h
    have hencoded : ∀ r ∈ codedResults config e dest (min outcome.bytesWritten dest.size)
        outcome.flags, r.status = .encoded := by
      intro r hr
      obtain ⟨i, hi, rfl⟩ := List.mem_mapIdx.mp hr
      rfl
    rw [sentBy_counted]
    constructor
    · rw [List.count_append, count_flatMap_publish (by simp),
        List.countP_eq_zero.mpr fun r hr => by simp [EncodeResult.isSkipped, hencoded r hr]]
      split <;> rfl
    · rw [List.count_append, count_flatMap_publish (by simp),
        List.countP_eq_zero.mpr fun r hr => by simp [EncodeResult.isFailed, hencoded r hr]]
      split <;> rfl
  · obtain rfl := Option.some.inj h
    have hsent : sentBy (.countSkipped :: publish (emptyResult config e .skipped)) =
        [emptyResult config e .skipped] := sentBy_publish _
    rw [hsent, List.count_cons_self, List.count_cons_of_ne (by simp), count_publish (by simp),
      count_publish (by simp)]
    exact ⟨rfl, rfl⟩
  · next error _ =>
    obtain rfl := Option.some.inj h
    have hsent : sentBy (.countFailed :: publish (emptyResult config e (.failed error))) =
        [emptyResult config e (.failed error)] := sentBy_publish _
    rw [hsent, List.count_cons_self, List.count_cons_of_ne (by simp), count_publish (by simp),
      count_publish (by simp)]
    exact ⟨rfl, rfl⟩
  · cases h

/-- How a command came out is counted unless the command describes no update. -/
theorem outcome_processCommand {backend : β} {dest : ByteArray} {seq : Nat} {c : Command}
    {effects : List Effect}
    (h : (processCommand B config backend dest seq c).effects = some effects) :
    effects.count .countSkipped = (sentBy effects).countP EncodeResult.isSkipped ∧
      effects.count .countFailed + [c].countP Command.isMalformed =
        (sentBy effects).countP EncodeResult.isFailed := by
  rcases processCommand_cases h with ⟨error, herror, rfl, -⟩ | ⟨u, e, r, hu, hreply, -⟩
  · have hmalformed : [c].countP Command.isMalformed = 1 := by
      rw [List.countP_singleton, if_pos (by rw [Command.isMalformed, herror]; rfl)]
    rw [sentBy_publish, hmalformed, count_publish (by simp), count_publish (by simp)]
    exact ⟨rfl, rfl⟩
  · have hdescribes : [c].countP Command.isMalformed = 0 := by
      rw [List.countP_singleton, if_neg (by rw [Command.isMalformed, hu]; exact Bool.false_ne_true)]
    rw [hdescribes, Nat.add_zero]
    exact outcome_effectsOfReply hreply

/-- The effects of a command that was dealt with tally with its results. -/
theorem Dealt.IsBy.tallies {d : Dealt β} (h : d.IsBy B config) :
    Tallies [d.command] d.effects := by
  have hpayloads : d.results.filterMap (some ∘ EncodeResult.length) =
      d.effects.filterMap Effect.payload? :=
    (h.announces announces_counted_publish (by simp [Effect.payload?])).told_eq
  have hlast : d.results.countP EncodeResult.last = 1 := countP_last_of_isGroup h.isGroup
  obtain ⟨dest, heffects, -⟩ := h
  obtain ⟨hskipped, hfailed⟩ := outcome_processCommand heffects
  refine ⟨hlast.symm, ?_, hskipped, hfailed⟩
  rw [← hpayloads, List.filterMap_eq_map]
  rfl

/-- A command that describes no update has one failed result, which names the reason. -/
theorem Dealt.IsBy.exists_failed {d : Dealt β} (h : d.IsBy B config) {error : CommandError}
    (herror : d.command.resolve = .error error) :
    ∃ r, d.results = [r] ∧ r.status = .failed (.invalidInput (.command error)) := by
  obtain ⟨dest, heffects, -⟩ := h
  rcases processCommand_cases heffects with ⟨error', herror', hrefused, -⟩ | ⟨u, e, r, hu, -, -⟩
  · cases herror.symm.trans herror'
    refine ⟨emptyResult config (.ofCommand d.seq d.command)
      (.failed (.invalidInput (.command error))), ?_, rfl⟩
    rw [Dealt.results, hrefused, sentBy_publish]
  · cases herror.symm.trans hu

/-- Tallies add up. -/
theorem Tallies.append {cs cs' : List Command} {xs ys : List Effect} (hx : Tallies cs xs)
    (hy : Tallies cs' ys) : Tallies (cs ++ cs') (xs ++ ys) := by
  have hsent : sentBy (xs ++ ys) = sentBy xs ++ sentBy ys := List.filterMap_append
  have hfailed := hx.failed_eq
  have hfailed' := hy.failed_eq
  constructor <;> rw [hsent]
  · rw [List.length_append, List.countP_append, hx.last_eq, hy.last_eq]
  · rw [List.filterMap_append, List.map_append, hx.payloads_eq, hy.payloads_eq]
  · rw [List.count_append, List.countP_append, hx.skipped_eq, hy.skipped_eq]
  · rw [List.count_append, List.countP_append, List.countP_append]
    omega

/-- The effects of commands that were dealt with one after the other tally with their results. -/
theorem tallies_flatMap {ds : List (Dealt β)} (h : ∀ d ∈ ds, d.IsBy B config) :
    Tallies (ds.map Dealt.command) (ds.flatMap Dealt.effects) := by
  induction ds with
  | nil => exact ⟨rfl, rfl, rfl, rfl⟩
  | cons d ds ih =>
    have htallies := (h d List.mem_cons_self).tallies
    exact htallies.append (ih fun d' hd' => h d' (List.mem_cons_of_mem d hd'))

/-- Between two commands nothing is pending, and the commands counted have been dealt with. -/
theorem settled_of_isBetween {history : List (Move β)} {s : System β} (h : Begun history s)
    (hbetween : s.worker.isBetween = true) :
    s.worker.effects = [] ∧
      (history.flatMap Move.counted).length = (history.flatMap Move.dealt).length := by
  obtain ⟨lost, hbegun, hlost⟩ := h.dealt_eq
  have hlength : (history.flatMap Move.counted).length + s.worker.uncounted.length =
      (history.flatMap Move.dealt).length + s.worker.inHand.length + lost.length := by
    rw [← List.length_append, ← h.counted_eq, hbegun, List.length_append, List.length_append,
      List.length_map]
  have hcrash : s.worker ≠ .gone true := by
    intro hw
    rw [hw] at hbetween
    cases hbetween
  rw [hlost, if_neg hcrash] at hlength
  cases hw : s.worker with
  | encoding seq c =>
    rw [hw] at hbetween
    cases hbetween
  | publishing effects =>
    rw [hw] at hbetween hlength
    cases effects with
    | nil => exact ⟨rfl, hlength⟩
    | cons e effects => cases hbetween
  | counting seq c =>
    rw [hw] at hlength
    exact ⟨rfl, Nat.succ.inj hlength⟩
  | _ =>
    rw [hw] at hlength
    exact ⟨rfl, hlength⟩

/-- Between two commands the effects of all commands that were dealt with have been seen. -/
theorem seen_eq_of_isBetween (B : Backend β) (config : PipelineConfig) (backend : β)
    (schedule : List Mover) :
    let start := System.new config backend
    let history := start.moves B schedule
    (start.run B schedule).worker.isBetween = true →
      (history.flatMap Move.dealt).flatMap Dealt.effects = history.flatMap Move.seen := by
  intro start history hbetween
  have heffects := (traced_run (B := B) (account_new config backend).1 schedule).effects_eq
  obtain ⟨hpending, -⟩ := settled_of_isBetween (begun_run B config backend schedule) hbetween
  rw [hpending, List.append_nil] at heffects
  exact heffects

/-- Between two commands what was seen tallies with the commands that were dealt with. -/
theorem tallies_run (B : Backend β) (config : PipelineConfig) (backend : β)
    (schedule : List Mover) :
    let start := System.new config backend
    let history := start.moves B schedule
    (start.run B schedule).worker.isBetween = true →
      Tallies ((history.flatMap Move.dealt).map Dealt.command) (history.flatMap Move.seen) := by
  intro start history hbetween
  rw [← seen_eq_of_isBetween B config backend schedule hbetween]
  exact tallies_flatMap (traced_run (account_new config backend).1 schedule).isBy

/-- What is published has been counted, result by result, at any moment. -/
theorem published_counted_prefix (B : Backend β) (config : PipelineConfig) (backend : β)
    (schedule : List Mover) :
    let history := (System.new config backend).moves B schedule
    (history.flatMap Move.published).map EncodeResult.length <+:
      (history.flatMap Move.seen).filterMap Effect.payload? := by
  intro history
  have htraced := traced_run (B := B) (account_new config backend).1 schedule
  have hannounces : Announces (some ∘ EncodeResult.length) Effect.payload?
      ((history.flatMap Move.dealt).flatMap Dealt.effects) :=
    announces_flatMap fun d hd =>
      (htraced.isBy d hd).announces announces_counted_publish (by simp [Effect.payload?])
  have hseen : history.flatMap Move.seen <+:
      (history.flatMap Move.dealt).flatMap Dealt.effects := ⟨_, htraced.effects_eq.symm⟩
  have hprefix := hannounces.told_prefix _ hseen
  rwa [List.filterMap_eq_map, ← published_flatMap] at hprefix

/-- The totals of published results, failures apart. -/
structure Stats.IsTotalOf (st : Stats) (published : List EncodeResult) : Prop where
  commands_eq : st.commands = published.countP EncodeResult.last
  results_eq : st.results = published.length
  bytes_eq : st.bytes = (published.map EncodeResult.length).sum
  skipped_eq : st.skipped = published.countP EncodeResult.isSkipped

/-- Along every schedule the totals between two commands are those of the published results, whether
anyone receives them or not. At any moment whatsoever they count what is published, and so what the
consumer holds. -/
theorem isTotalOf_run (B : Backend β) (config : PipelineConfig) (backend : β)
    (schedule : List Mover) :
    let start := System.new config backend
    let history := start.moves B schedule
    let s := start.run B schedule
    let published := history.flatMap Move.published
    (s.worker.isBetween = true → s.stats.IsTotalOf published) ∧
      history.flatMap Move.received <+: published ∧ published.length ≤ s.stats.results ∧
      (published.map EncodeResult.length).sum ≤ s.stats.bytes := by
  intro start history s published
  have hgrows : Stats.zero.Grows s.stats (history.flatMap Move.counted)
      (history.flatMap Move.seen) := (traced_run (account_new config backend).1 schedule).grows
  obtain ⟨-, -, hdelivery⟩ := account_run B config backend schedule
  have hreceived : history.flatMap Move.received <+: published := hdelivery.received_prefix
  have hpublished : published = sentBy (history.flatMap Move.seen) := published_flatMap history
  refine ⟨fun hbetween => ?_, hreceived, ?_⟩
  · have htallies := tallies_run B config backend schedule hbetween
    obtain ⟨-, hcounted⟩ := settled_of_isBetween (begun_run B config backend schedule) hbetween
    rw [hpublished]
    constructor
    · rw [hgrows.commands_eq, hcounted, ← htallies.last_eq, List.length_map]
      exact Nat.zero_add _
    · rw [hgrows.results_eq, htallies.payloads_eq, List.length_map]
      exact Nat.zero_add _
    · rw [hgrows.bytes_eq, htallies.payloads_eq]
      exact Nat.zero_add _
    · rw [hgrows.skipped_eq, htallies.skipped_eq]
      exact Nat.zero_add _
  · obtain ⟨rest, hrest⟩ : published.map EncodeResult.length <+:
        (history.flatMap Move.seen).filterMap Effect.payload? :=
      published_counted_prefix B config backend schedule
    rw [hgrows.results_eq, hgrows.bytes_eq, ← hrest, List.length_append, List.length_map,
      List.sum_append]
    exact ⟨by omega, by omega⟩

/-- Ten bytes in blocks of four, behind two bytes of padding, sent after the receiver was dropped,
are three results, of which one is the last of the command. -/
example :
    let config : PipelineConfig :=
      { (default : PipelineConfig) with
        maxCompressedBytes := 16, padBytes := 2, outputChunkBytes := some 4 }
    let start := System.new config ⟨[], .write (some (Bytes.zeros 10)) none .none, []⟩
    let schedule := [.call (.start none), .owner, .dropReceiver,
      .call (.submit (.surface ⟨.empty, [], 0, 0, 0, 0, 0, 0, .nv12, 0, some 1⟩)),
      .owner, .owner, .owner] ++ List.replicate 13 .worker
    let s := start.run ScriptedBackend.backend schedule
    let published := (start.moves ScriptedBackend.backend schedule).flatMap Move.published
    s.worker.isBetween = true ∧ s.outbound = [] ∧ s.stats = ⟨1, 3, 10, 0, 0, 0⟩ ∧
      published.map EncodeResult.last = [false, false, true] := by
  decide +kernel

/-- Along every schedule, between two commands, the failures counted and the commands that describe
no update make up the failed results. Each such command has one failed result, which names the
reason. So the failures counted are the failed results if and only if no such command was dealt
with. -/
theorem failed_add_malformed_run (B : Backend β) (config : PipelineConfig) (backend : β)
    (schedule : List Mover)
    (hbetween : ((System.new config backend).run B schedule).worker.isBetween = true) :
    let start := System.new config backend
    let history := start.moves B schedule
    let failed := (start.run B schedule).stats.failed
    let published := history.flatMap Move.published
    let dealt := history.flatMap Move.dealt
    failed + (dealt.map Dealt.command).countP Command.isMalformed =
        published.countP EncodeResult.isFailed ∧
      (∀ d ∈ dealt, ∀ error, d.command.resolve = .error error →
        ∃ r ∈ published, d.results = [r] ∧ r.status = .failed (.invalidInput (.command error))) ∧
      (failed = published.countP EncodeResult.isFailed ↔
        ∀ d ∈ dealt, d.command.isMalformed = false) := by
  intro start history failed published dealt
  have htraced := traced_run (B := B) (account_new config backend).1 schedule
  have htallies := tallies_run B config backend schedule hbetween
  have hpublished : published = sentBy (history.flatMap Move.seen) := published_flatMap history
  have hcount : failed + (dealt.map Dealt.command).countP Command.isMalformed =
      published.countP EncodeResult.isFailed := by
    rw [hpublished, ← htallies.failed_eq]
    exact congrArg (· + _) (htraced.grows.failed_eq.trans (Nat.zero_add _))
  refine ⟨hcount, fun d hd error herror => ?_, ?_⟩
  · obtain ⟨r, hresults, hstatus⟩ := (htraced.isBy d hd).exists_failed herror
    have hr : r ∈ d.results := by
      rw [hresults]
      exact List.mem_singleton_self r
    refine ⟨r, ?_, hresults, hstatus⟩
    rw [hpublished, ← seen_eq_of_isBetween B config backend schedule hbetween, sentBy_flatMap]
    exact List.mem_flatten.mpr ⟨d.results, List.mem_map_of_mem hd, hr⟩
  · calc failed = published.countP EncodeResult.isFailed
        ↔ (dealt.map Dealt.command).countP Command.isMalformed = 0 := by omega
      _ ↔ ∀ d ∈ dealt, d.command.isMalformed = false := by
        simp only [List.countP_eq_zero, List.forall_mem_map, Bool.not_eq_true]

/-- A graphics command without a header, dealt with to its end. -/
def emptyHeader : List Mover :=
  [.call (.start none), .owner, .call (.submit (.gfx .empty none)), .owner, .owner, .owner] ++
    List.replicate 9 .worker

/-- The failed result of a command without a header is counted as no failure. -/
theorem failed_add_malformed_emptyHeader :
    let start := System.new default ⟨[], .crash, []⟩
    let history := start.moves ScriptedBackend.backend emptyHeader
    let failed := (start.run ScriptedBackend.backend emptyHeader).stats.failed
    let published := history.flatMap Move.published
    let dealt := history.flatMap Move.dealt
    (start.run ScriptedBackend.backend emptyHeader).worker.isBetween = true ∧
      (failed = 0 ∧ published.countP EncodeResult.isFailed = 1) ∧
      failed + (dealt.map Dealt.command).countP Command.isMalformed =
        published.countP EncodeResult.isFailed ∧
      (∀ d ∈ dealt, ∀ error, d.command.resolve = .error error →
        ∃ r ∈ published, d.results = [r] ∧ r.status = .failed (.invalidInput (.command error))) ∧
      (failed = published.countP EncodeResult.isFailed ↔
        ∀ d ∈ dealt, d.command.isMalformed = false) :=
  have hbetween : ((System.new default ⟨[], .crash, []⟩).run ScriptedBackend.backend
      emptyHeader).worker.isBetween = true := by decide +kernel
  ⟨hbetween, by decide +kernel, failed_add_malformed_run _ _ _ _ hbetween⟩

end FrameEncoder
