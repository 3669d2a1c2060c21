import FrameEncoder.Pipeline.Publication

/-!
# The results of one command

Dealing with a command hands over one group of results: at least one, all under the label of the
command, the first of them the only one that does not continue another and the final one the only
last one. A command that was skipped or failed has one result without a payload.
-/

namespace FrameEncoder

/-- The result an effect hands over, if it does. -/
def Effect.sent? : Effect → Option EncodeResult
  | .send r => some r
  | _ => none

/-- The results that effects hand over, in order. -/
def sentBy (effects : List Effect) : List EncodeResult := effects.filterMap Effect.sent?

/-- The region of a command, empty at the corner of the screen if it describes no update. -/
def Command.region (c : Command) : Rect :=
  match c.resolve with
  | .ok u => ⟨u.left, u.top, u.width, u.height⟩
  | .error _ => ⟨0, 0, 0, 0⟩

/-- The region a result is labelled with. -/
def EncodeResult.region (r : EncodeResult) : Rect := ⟨r.x, r.y, r.cx, r.cy⟩

/-- The label that the results of a command bear. -/
structure EncodeResult.IsLabelled (seq : Nat) (c : Command) (r : EncodeResult) : Prop where
  seq_eq : r.seq = seq
  frameId_eq : r.frameId = c.frameId
  gfx_eq : r.flags.gfx = c.isGfx
  frameFlag_eq : r.flags.frameId = c.frameId.isSome
  region_eq : r.region = c.region

/-- The results of one command, all of them. -/
structure IsGroup (seq : Nat) (c : Command) (rs : List EncodeResult) : Prop where
  nonempty : rs ≠ []
  labelled : ∀ r ∈ rs, r.IsLabelled seq c
  continuation_iff : ∀ i (h : i < rs.length), rs[i].continuation = true ↔ i ≠ 0
  last_iff : ∀ i (h : i < rs.length), rs[i].last = true ↔ i + 1 = rs.length
  /-- Without output there is one result, and it has no payload. -/
  empty : ∀ r ∈ rs, r.status ≠ .encoded → rs = [r] ∧ r.payload = .empty

/-- The final result of a group is its only last one. -/
theorem IsGroup.exists_concat {seq : Nat} {c : Command} {rs : List EncodeResult}
    (h : IsGroup seq c rs) :
    ∃ init r, rs = init ++ [r] ∧ (∀ q ∈ init, q.last = false) ∧ r.last = true := by
  obtain ⟨init, r, rfl⟩ : ∃ init r, rs = init ++ [r] :=
    ⟨_, _, (List.dropLast_concat_getLast h.nonempty).symm⟩
  refine ⟨init, r, rfl, fun q hq => ?_, ?_⟩
  · obtain ⟨i, hi, rfl⟩ := List.getElem_of_mem hq
    have hlast := h.last_iff i (by rw [List.length_append]; omega)
    rw [List.getElem_append_left hi, List.length_append, List.length_singleton] at hlast
    exact eq_false_of_ne_true fun hset => absurd (hlast.mp hset) (by omega)
  · have hlast := h.last_iff init.length (by simp)
    simpa only [List.getElem_concat_length, List.length_append, List.length_singleton,
      iff_true] using hlast

/-- Publishing a result hands over just that one. -/
theorem sentBy_publish (r : EncodeResult) : sentBy (publish r) = [r] := by
  unfold publish
  cases r.completedFrame <;> rfl

/-- Publishing results hands over just those. -/
theorem sentBy_flatMap_publish (rs : List EncodeResult) : sentBy (rs.flatMap publish) = rs := by
  induction rs with
  | nil => rfl
  | cons r rs ih =>
    have happend : sentBy (publish r ++ rs.flatMap publish) =
        sentBy (publish r) ++ sentBy (rs.flatMap publish) := List.filterMap_append
    rw [List.flatMap_cons, happend, sentBy_publish, ih]
    rfl

/-- Counting a creation first hands over nothing more. -/
theorem sentBy_counted (created : Bool) (rs : List EncodeResult) :
    sentBy ((if created then [.countReinit] else []) ++ rs.flatMap publish) = rs := by
  have hrest := sentBy_flatMap_publish rs
  split
  · exact hrest
  · exact hrest

/-- The payload of a result is what it was made from. -/
theorem payload_result (e : Envelope) (padBytes : Nat) (payload : ByteArray)
    (last continuation : Bool) (status : EncodeStatus) (flags : ContextFlags) :
    (e.result padBytes payload last continuation status flags).payload = payload := by
  have hpad : (Bytes.zeros padBytes ++ payload).size = padBytes + payload.size := by
    rw [ByteArray.size_append, Bytes.size_zeros]
  apply Bytes.ext
  simp only [EncodeResult.payload, Envelope.result, hpad]
  rw [Bytes.toList, ByteArray.data_extract, Array.toList_extract, List.extract_eq_take_drop]
  have hlist : (Bytes.zeros padBytes ++ payload).data.toList =
      List.replicate padBytes 0 ++ Bytes.toList payload := by
    rw [← Bytes.toList_zeros]
    exact Bytes.toList_append _ _
  rw [hlist, Nat.min_eq_left (Nat.le_add_right _ _), List.drop_left' (List.length_replicate ..),
    Nat.add_sub_cancel_left]
  exact List.take_of_length_le (Nat.le_of_eq (Bytes.length_toList payload))

/-- The label of a command, with or without its region. -/
def Envelope.IsOf (e : Envelope) (seq : Nat) (c : Command) : Prop :=
  e.seq = seq ∧ e.frameId = c.frameId ∧ e.flags = ⟨c.isGfx, c.frameId.isSome⟩ ∧
    (⟨e.x, e.y, e.cx, e.cy⟩ : Rect) = c.region

/-- A result under the label of a command bears that label. -/
theorem isLabelled_result {e : Envelope} {seq : Nat} {c : Command} (he : e.IsOf seq c)
    (padBytes : Nat) (payload : ByteArray) (last continuation : Bool) (status : EncodeStatus)
    (flags : ContextFlags) :
    (e.result padBytes payload last continuation status flags).IsLabelled seq c := by
  obtain ⟨hseq, hframe, hflags, hregion⟩ := he
  exact ⟨hseq, hframe, congrArg ResultFlags.gfx hflags, congrArg ResultFlags.frameId hflags,
    hregion⟩

/-- A command without output has one result. -/
theorem isGroup_emptyResult {e : Envelope} {seq : Nat} {c : Command} (he : e.IsOf seq c)
    (config : PipelineConfig) (status : EncodeStatus) :
    IsGroup seq c [emptyResult config e status] where
  nonempty := List.cons_ne_nil _ _
  labelled r hr := by
    obtain rfl := List.mem_singleton.mp hr
    exact isLabelled_result he ..
  continuation_iff i h := by
    obtain rfl : i = 0 := by simpa using h
    simp [emptyResult, Envelope.result]
  last_iff i h := by
    obtain rfl : i = 0 := by simpa using h
    simp [emptyResult, Envelope.result]
  empty r hr _ := by
    obtain rfl := List.mem_singleton.mp hr
    exact ⟨rfl, payload_result ..⟩

/-- Output is split into one block at least. -/
theorem length_chunks_pos (limit : Option Nat) (dest : ByteArray) (length : Nat) :
    0 < (chunks limit dest length).length := by
  rw [chunks, List.length_map, List.length_range]
  exact Nat.le_max_right _ _

/-- The blocks of coded output are a group. -/
theorem isGroup_codedResults {e : Envelope} {seq : Nat} {c : Command} (he : e.IsOf seq c)
    (config : PipelineConfig) (dest : ByteArray) (length : Nat) (flags : ContextFlags) :
    IsGroup seq c (codedResults config e dest length flags) := by
  have hlength : (codedResults config e dest length flags).length =
      (chunks config.outputChunkBytes dest length).length := List.length_mapIdx
  have hpos := length_chunks_pos config.outputChunkBytes dest length
  have hget : ∀ r ∈ codedResults config e dest length flags, ∃ block last continuation,
      r = e.result config.padBytes block last continuation .encoded flags := by
    intro r hr
    obtain ⟨i, hi, rfl⟩ := List.mem_mapIdx.mp hr
    exact ⟨_, _, _, rfl⟩
  constructor
  · intro hnil
    rw [hnil, List.length_nil] at hlength
    omega
  · intro r hr
    obtain ⟨block, last, continuation, rfl⟩ := hget r hr
    exact isLabelled_result he ..
  · intro i h
    simp only [codedResults, List.getElem_mapIdx, Envelope.result, decide_eq_true_eq]
    omega
  · intro i h
    rw [hlength]
    simp only [codedResults, List.getElem_mapIdx, Envelope.result, decide_eq_true_eq]
  · intro r hr hstatus
    obtain ⟨block, last, continuation, rfl⟩ := hget r hr
    exact absurd rfl hstatus

/-- A reply of the backend is published as a group. -/
theorem isGroup_effectsOfReply {e : Envelope} {seq : Nat} {c : Command} (he : e.IsOf seq c)
    {config : PipelineConfig} {dest : ByteArray} {reply : EncodeReply} {effects : List Effect}
    (h : effectsOfReply config e dest reply = some effects) : IsGroup seq c (sentBy effects) := by
  unfold effectsOfReply at h
  split at h
  · obtain rfl := Option.some.inj h
    rw [sentBy_counted]
    exact isGroup_codedResults he ..
  · obtain rfl := Option.some.inj h
    have hsent : sentBy (.countSkipped :: publish (emptyResult config e .skipped)) =
        [emptyResult config e .skipped] := sentBy_publish _
    rw [hsent]
    exact isGroup_emptyResult he ..
  · next error _ =>
    obtain rfl := Option.some.inj h
    have hsent : sentBy (.countFailed :: publish (emptyResult config e (.failed error))) =
        [emptyResult config e (.failed error)] := sentBy_publish _
    rw [hsent]
    exact isGroup_emptyResult he ..
  · cases h

/-- The effects of dealing with a command hand over its group. -/
theorem isGroup_processCommand {β : Type} {B : Backend β} {config : PipelineConfig} {backend : β}
    {dest : ByteArray} {seq : Nat} {c : Command} {effects : List Effect}
    (h : (processCommand B config backend dest seq c).effects = some effects) :
    IsGroup seq c (sentBy effects) := by
  unfold processCommand at h
  simp only at h
  split at h
  · next error herror =>
    obtain rfl := Option.some.inj h
    have he : (Envelope.ofCommand seq c).IsOf seq c := by
      refine ⟨rfl, rfl, rfl, ?_⟩
      rw [Command.region, herror]
      rfl
    rw [sentBy_publish]
    exact isGroup_emptyResult he ..
  · next u hu =>
    split at h
    · cases h
    · have he : ((Envelope.ofCommand seq c).withRegion u).IsOf seq c := by
        refine ⟨rfl, rfl, rfl, ?_⟩
        rw [Command.region, hu]
        rfl
      exact isGroup_effectsOfReply he h

end FrameEncoder
