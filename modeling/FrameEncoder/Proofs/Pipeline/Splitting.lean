import FrameEncoder.Backend.Scripted
import FrameEncoder.Proofs.Pipeline.ResultGroups
import Mathlib.Algebra.Order.Floor.Div

/-!
# Splitting output into blocks

The output of a command is cut at the multiples of a block length, which is the limit on blocks
where there is one that the output exceeds, and the whole output otherwise. Every block starts
within the output, the blocks cover it, and each is as long as a full block or as what is left.
So no byte is lost or repeated, whatever the limit, the length and the room are.
-/

namespace FrameEncoder

/-- Output is split by a limit that it exceeds, or stays whole. -/
theorem chunkLength_cases (limit : Option Nat) (length : Nat) :
    (∃ n, limit = some n ∧ 0 < n ∧ n < length ∧ chunkLength limit length = n) ∨
      (∀ n, limit = some n → 0 < n → length ≤ n) ∧ chunkLength limit length = max length 1 := by
  cases limit with
  | none => exact .inr ⟨nofun, rfl⟩
  | some n =>
    by_cases h : n > 0 ∧ length > n
    · exact .inl ⟨n, rfl, h.1, h.2, if_pos h⟩
    · refine .inr ⟨fun m hm hpos => ?_, if_neg h⟩
      obtain rfl := Option.some.inj hm
      exact Nat.le_of_not_lt fun hlt => h ⟨hpos, hlt⟩

/-- A full block has at least one byte. -/
theorem chunkLength_pos (limit : Option Nat) (length : Nat) : 0 < chunkLength limit length := by
  obtain ⟨n, -, hpos, -, hn⟩ | ⟨-, hwhole⟩ := chunkLength_cases limit length
  · rw [hn]
    exact hpos
  · rw [hwhole]
    exact Nat.le_max_right _ _

/-- There are as many blocks as it takes full blocks to cover the output, and at least one. -/
theorem chunkCount_eq (limit : Option Nat) (length : Nat) :
    chunkCount limit length = max 1 (length ⌈/⌉ chunkLength limit length) :=
  Nat.max_comm _ _

/-- Every block of an output starts within it. -/
theorem chunk_start_lt {limit : Option Nat} {length i : Nat} (hpos : 0 < length)
    (hi : i < chunkCount limit length) : i * chunkLength limit length < length := by
  have hcover : length ⌈/⌉ chunkLength limit length ≤ i ↔ length ≤ chunkLength limit length * i :=
    ceilDiv_le_iff_le_mul (chunkLength_pos limit length)
  rw [chunkCount_eq] at hi
  by_contra hpast
  rw [Nat.not_lt, Nat.mul_comm, ← hcover] at hpast
  have hfirst : i = 0 := by omega
  rw [hcover, hfirst] at hpast
  omega

/-- The blocks of an output cover it. -/
theorem le_chunkCount_mul (limit : Option Nat) (length : Nat) :
    length ≤ chunkCount limit length * chunkLength limit length := by
  have hcover : length ⌈/⌉ chunkLength limit length ≤ chunkCount limit length := by
    rw [chunkCount_eq]
    exact Nat.le_max_right _ _
  rw [Nat.mul_comm]
  exact (ceilDiv_le_iff_le_mul (chunkLength_pos limit length)).mp hcover

/-- Output that is split is longer than the limit it is split by. -/
theorem chunkCount_cases (limit : Option Nat) (length : Nat) :
    chunkCount limit length = 1 ∨ ∃ n, limit = some n ∧ 0 < n ∧ n < length := by
  obtain ⟨n, hlimit, hpos, hlt, -⟩ | ⟨-, hwhole⟩ := chunkLength_cases limit length
  · exact .inr ⟨n, hlimit, hpos, hlt⟩
  · refine .inl ?_
    have hone : length ⌈/⌉ max length 1 ≤ 1 := by
      rw [ceilDiv_le_iff_le_mul (by omega), Nat.mul_one]
      exact Nat.le_max_left _ _
    rw [chunkCount_eq, hwhole]
    exact Nat.max_eq_left hone

/-- The blocks of an output start before they end and end with it. -/
theorem chunk_bounds {limit : Option Nat} {length i : Nat} (hi : i < chunkCount limit length) :
    i * chunkLength limit length ≤
        min (i * chunkLength limit length + chunkLength limit length) length ∧
      min (i * chunkLength limit length + chunkLength limit length) length ≤ length := by
  refine ⟨Nat.le_min.mpr ⟨Nat.le_add_right _ _, ?_⟩, Nat.min_le_right _ _⟩
  rcases Nat.eq_zero_or_pos length with rfl | hpos
  · have hone : chunkCount limit 0 = 1 := (chunkCount_cases limit 0).resolve_right (by omega)
    rw [hone] at hi
    rw [Nat.lt_one_iff.mp hi, Nat.zero_mul]
  · exact Nat.le_of_lt (chunk_start_lt hpos hi)

/-- By a limit, output is split into as many blocks as it takes blocks of that length to cover it,
and at least one. -/
theorem chunkCount_some {n : Nat} (hpos : 0 < n) (length : Nat) :
    chunkCount (some n) length = max 1 (length ⌈/⌉ n) := by
  obtain ⟨m, hlimit, -, -, hm⟩ | ⟨hfits, hwhole⟩ := chunkLength_cases (some n) length
  · obtain rfl := Option.some.inj hlimit
    rw [chunkCount_eq, hm]
  · have hone : length ⌈/⌉ n ≤ 1 := by
      rw [ceilDiv_le_iff_le_mul hpos, Nat.mul_one]
      exact hfits n rfl hpos
    rw [Nat.max_eq_left hone]
    refine (chunkCount_cases (some n) length).resolve_right ?_
    rintro ⟨m, hlimit, -, hlt⟩
    obtain rfl := Option.some.inj hlimit
    exact absurd (hfits n rfl hpos) (Nat.not_le_of_lt hlt)

/-- No full block is longer than the limit. -/
theorem chunkLength_le {n : Nat} (hpos : 0 < n) (length : Nat) :
    chunkLength (some n) length ≤ n := by
  obtain ⟨m, hlimit, -, -, hm⟩ | ⟨hfits, hwhole⟩ := chunkLength_cases (some n) length
  · rw [hm, Option.some.inj hlimit]
  · rw [hwhole]
    exact Nat.max_le.mpr ⟨hfits n rfl hpos, hpos⟩

/-- Pieces of one length, one after the other, make up what they cover. -/
theorem flatMap_pieces {α : Type} (xs : List α) (size count : Nat) :
    (List.range count).flatMap (fun i => (xs.drop (i * size)).take size) =
      xs.take (count * size) := by
  induction count with
  | zero => rw [Nat.zero_mul, List.take_zero, List.range_zero, List.flatMap_nil]
  | succ count ih =>
    rw [List.range_succ, List.flatMap_append, ih, List.flatMap_singleton, Nat.succ_mul,
      List.take_add]

/-- A block lists a piece of the output. -/
theorem toList_extract_min (dest : ByteArray) (start size length : Nat) :
    Bytes.toList (dest.extract start (min (start + size) length)) =
      (((Bytes.toList dest).take length).drop start).take size := by
  rw [Bytes.toList, ByteArray.data_extract, Array.toList_extract, List.extract_eq_take_drop,
    List.drop_take, List.take_take]
  congr 1
  omega

/-- The blocks of an output make up the output. -/
theorem flatMap_toList_chunks (limit : Option Nat) (dest : ByteArray) (length : Nat) :
    (chunks limit dest length).flatMap Bytes.toList = (Bytes.toList dest).take length := by
  have hall : ((Bytes.toList dest).take length).length ≤
      chunkCount limit length * chunkLength limit length :=
    (List.length_take_le _ _).trans (le_chunkCount_mul limit length)
  rw [chunks, List.flatMap_map]
  simp only [toList_extract_min]
  rw [flatMap_pieces, List.take_of_length_le hall]

/-- A block is as long as a full one or as what is left. -/
theorem size_chunks {limit : Option Nat} {dest : ByteArray} {length i : Nat}
    (hlength : length ≤ dest.size) (h : i < (chunks limit dest length).length) :
    (chunks limit dest length)[i].size =
      min (chunkLength limit length) (length - i * chunkLength limit length) := by
  simp only [chunks, List.getElem_map, List.getElem_range, ByteArray.size_extract]
  omega

/-- The bytes of a result are zeroed room for framing and its payload. -/
theorem toList_data_result (e : Envelope) (padBytes : Nat) (payload : ByteArray)
    (last continuation : Bool) (status : EncodeStatus) (flags : ContextFlags) :
    Bytes.toList (e.result padBytes payload last continuation status flags).data =
      List.replicate padBytes 0 ++ Bytes.toList payload := by
  change Bytes.toList (Bytes.zeros padBytes ++ payload) = _
  rw [Bytes.toList_append, Bytes.toList_zeros]

/-- The payloads of the results of coded output are its blocks. -/
theorem map_payload_codedResults (config : PipelineConfig) (e : Envelope) (dest : ByteArray)
    (length : Nat) (flags : ContextFlags) :
    (codedResults config e dest length flags).map EncodeResult.payload =
      chunks config.outputChunkBytes dest length := by
  refine List.ext_getElem (by rw [List.length_map, codedResults, List.length_mapIdx]) ?_
  intro i hi hi'
  rw [List.getElem_map]
  simp only [codedResults, List.getElem_mapIdx]
  exact payload_result ..

/-- There is a result for each block of coded output. -/
theorem length_codedResults (config : PipelineConfig) (e : Envelope) (dest : ByteArray)
    (length : Nat) (flags : ContextFlags) :
    (codedResults config e dest length flags).length =
      chunkCount config.outputChunkBytes length := by
  rw [codedResults, List.length_mapIdx, chunks, List.length_map, List.length_range]

/-- The payload of a result is as long as a full block or as what is left. -/
theorem size_payload_codedResults {config : PipelineConfig} {e : Envelope} {dest : ByteArray}
    {length : Nat} {flags : ContextFlags} (hlength : length ≤ dest.size) {i : Nat}
    (h : i < (codedResults config e dest length flags).length) :
    (codedResults config e dest length flags)[i].payload.size =
      min (chunkLength config.outputChunkBytes length)
        (length - i * chunkLength config.outputChunkBytes length) := by
  have hmap : i < ((codedResults config e dest length flags).map EncodeResult.payload).length := by
    rwa [List.length_map]
  have hblock := List.getElem_of_eq (map_payload_codedResults config e dest length flags) hmap
  rw [List.getElem_map] at hblock
  rw [hblock]
  exact size_chunks hlength _

/-- Results that carry the first bytes of a destination, all of them and each of them once. -/
structure SplitsLosslessly (config : PipelineConfig) (dest : ByteArray) (length : Nat)
    (rs : List EncodeResult) : Prop where
  joined : rs.flatMap (fun r => Bytes.toList r.payload) = (Bytes.toList dest).take length
  padded : ∀ r ∈ rs, r.padBytes = config.padBytes ∧
    Bytes.toList r.data = List.replicate config.padBytes 0 ++ Bytes.toList r.payload
  /-- Without a limit there is one result. -/
  unlimited : config.outputChunkBytes = none ∨ config.outputChunkBytes = some 0 → rs.length = 1
  /-- By a limit, there are as many results as it takes, and all but the last are full. -/
  limited : ∀ n, config.outputChunkBytes = some n → 0 < n →
    rs.length = max 1 (length ⌈/⌉ n) ∧
    (∀ i (h : i < rs.length), i + 1 < rs.length → rs[i].payload.size = n) ∧
    ∀ i (h : i < rs.length), i + 1 = rs.length →
      rs[i].payload.size ≤ n ∧ (length ≠ 0 → rs[i].payload.size ≠ 0)

/-- The results of coded output carry all of it. -/
theorem splitsLosslessly_codedResults (config : PipelineConfig) (e : Envelope) {dest : ByteArray}
    {length : Nat} (hlength : length ≤ dest.size) (flags : ContextFlags) :
    SplitsLosslessly config dest length (codedResults config e dest length flags) := by
  have hcount := length_codedResults config e dest length flags
  constructor
  · rw [← List.flatMap_map EncodeResult.payload, map_payload_codedResults]
    exact flatMap_toList_chunks config.outputChunkBytes dest length
  · intro r hr
    obtain ⟨i, hi, rfl⟩ := List.mem_mapIdx.mp hr
    refine ⟨rfl, ?_⟩
    rw [payload_result]
    exact toList_data_result ..
  · intro hlimit
    rw [hcount]
    refine (chunkCount_cases config.outputChunkBytes length).resolve_right ?_
    rintro ⟨n, hn, hpos, -⟩
    rcases hlimit with hnone | hzero
    · rw [hnone] at hn
      cases hn
    · rw [hzero] at hn
      exact absurd (Option.some.inj hn) (Nat.ne_of_lt hpos)
  · intro n hn hpos
    rw [hn] at hcount
    refine ⟨hcount.trans (chunkCount_some hpos length), fun i h hmore => ?_, fun i h hlast => ?_⟩
    · -- The next block starts within the output, so nothing is missing from this one.
      rw [hcount] at hmore
      obtain ⟨m, hm, -, hlt⟩ := (chunkCount_cases (some n) length).resolve_left (by omega)
      obtain rfl := Option.some.inj hm
      have hfull : chunkLength (some n) length = n := if_pos ⟨hpos, hlt⟩
      have hstart := chunk_start_lt (by omega) hmore
      rw [hfull, Nat.succ_mul] at hstart
      rw [size_payload_codedResults hlength h, hn, hfull]
      omega
    · have hle := chunkLength_le hpos length
      have hblock := chunkLength_pos (some n) length
      rw [size_payload_codedResults hlength h, hn]
      refine ⟨(Nat.min_le_left _ _).trans hle, fun hsome => ?_⟩
      have hstart := chunk_start_lt (Nat.pos_of_ne_zero hsome) (hcount ▸ h)
      omega

/-- A command that the backend encoded is answered by its output, all of it that can be there:
whatever number of bytes the backend claims, no more than the destination has are split. -/
theorem splitsLosslessly_processCommand {β : Type} {B : Backend β} {config : PipelineConfig}
    {backend after : β} {c : Command} {u : SurfaceUpdate} {data dest out : ByteArray}
    {outcome : EncodeOutcome} (hu : c.resolve = .ok u) (hdata : encoderPixels u = some data)
    (hreply : B.encode backend (requestOf config u data) dest = (.done outcome, out, after))
    (seq : Nat) :
    ∃ effects, (processCommand B config backend dest seq c).effects = some effects ∧
      SplitsLosslessly config out (min outcome.bytesWritten out.size) (sentBy effects) := by
  simp only [processCommand, hu, hdata, hreply, effectsOfReply]
  refine ⟨_, rfl, ?_⟩
  rw [sentBy_counted]
  exact splitsLosslessly_codedResults config _ (Nat.min_le_right _ _) outcome.flags

/-- A claim of twelve bytes in a destination of ten, split by a limit of four. -/
theorem splitsLosslessly_processCommand_twelveOfTen :
    let B := ScriptedBackend.backend
    let config := { (default : PipelineConfig) with padBytes := 2, outputChunkBytes := some 4 }
    let u : SurfaceUpdate := ⟨.empty, [], 0, 0, 4, 4, 4, 4, .nv12, 0, none⟩
    let state : ScriptedBackend := ⟨[], .write (some (Bytes.zeros 12)) (some 12) .none, []⟩
    let dest := Bytes.zeros 10
    let out := B.encode state (requestOf config u .empty) dest
    let effects := (processCommand B config state dest 1 (.surface u)).effects
    effects.map (fun es => (sentBy es).map fun r => r.payload.size) = some [4, 4, 2] ∧
      ∃ es, effects = some es ∧
        SplitsLosslessly config out.2.1 (min 12 out.2.1.size) (sentBy es) := by
  intro B config u state dest out effects
  have hreply : out = (.done ⟨12, .none⟩, out.2.1, out.2.2) :=
    Prod.ext (by decide +kernel) rfl
  exact ⟨by decide +kernel, splitsLosslessly_processCommand rfl rfl hreply 1⟩

end FrameEncoder
