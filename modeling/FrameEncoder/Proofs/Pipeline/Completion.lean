import FrameEncoder.Proofs.Backend.Calls
import FrameEncoder.Proofs.Picture.Conversion
import FrameEncoder.Proofs.Pipeline.Schedules
import FrameEncoder.Proofs.Pipeline.Splitting

/-!
# Every command is dealt with

No command crashes the encode thread, whatever its header, its pixels, its origin, its sizes and
its rectangles are, as long as the sessions of the library do not crash. Every access on the way
lies in its buffer: those of a colour conversion, those of a damage copy, those of laying units
into the destination and those of splitting it into blocks.
-/

namespace FrameEncoder

/-- What a damage copy relies on: room for the padded picture, offsets from the origin that are
32-bit values and not negative, and rows within their planes. -/
structure CopyGeometry.IsSafe (layout : PlaneLayout) (g : CopyGeometry) (src dst : ByteArray)
    (rects : List Rect) : Prop where
  room : g.lumaLength + 2 * g.chromaLength ≤ dst.size
  columns : ∀ q ∈ rects.filterMap g.clip,
    0 ≤ q.x.toInt - g.left.toInt ∧ q.x.toInt - g.left.toInt < 2147483648
  rows : ∀ q ∈ rects.filterMap g.clip,
    0 ≤ q.y.toInt - g.top.toInt ∧ q.y.toInt - g.top.toInt < 2147483648
  inBounds : ∀ t ∈ transfers layout g src dst rects, t.InBounds src dst
  completes : ∃ out, copy layout g src dst rects = some out

/-- A copy from a full tile into a picture with room is safe. -/
theorem CopyGeometry.isSafe_of_fillsTile {g : CopyGeometry} {src dst : ByteArray}
    (hsrc : g.FillsTile src) (hdst : g.HasRoom dst) (layout : PlaneLayout) (rects : List Rect) :
    IsSafe layout g src dst rects where
  room := splitLength_le hdst .i420
  columns q hq := by
    obtain ⟨r, -, hclip⟩ := List.mem_filterMap.mp hq
    have hx := (isCutSpan_of_clip hclip).1
    exact ⟨Int.sub_nonneg_of_le hx.origin_le, hx.offset_lt⟩
  rows q hq := by
    obtain ⟨r, -, hclip⟩ := List.mem_filterMap.mp hq
    have hy := (isCutSpan_of_clip hclip).2
    exact ⟨Int.sub_nonneg_of_le hy.origin_le, hy.offset_lt⟩
  inBounds := transfers_inBounds hsrc hdst layout rects
  completes := by
    obtain ⟨out, hout, -⟩ := exists_copy hsrc hdst layout rects
    exact ⟨out, hout⟩

namespace RgbConversion.Tile

/-- What a colour conversion relies on: pixels within the tile, chroma within the buffer, and
blocks that are averaged over at least one pixel. -/
structure IsSafe (t : Tile) (rects : List Rect) (dst : ByteArray) : Prop where
  pixels : ∀ q ∈ rects.filterMap fun r => r.intersect t.rect, ∀ x y, (pixels q).Has x y →
    (y * t.width + x) * 4 + 3 < t.data.size ∧ y * t.width + x < t.width * t.height
  blocks : ∀ q ∈ rects.filterMap fun r => r.intersect t.rect, ∀ cx cy, (t.blocks q).Has cx cy →
    t.width * t.height + (cy * t.width + cx * 2 + 1) < dst.size ∧
      ∃ sum n, t.sumOf? (blockPixels cx cy) = some (sum, n) ∧ 0 < n
  completes : ∃ out, t.convert rects dst = some out

/-- The conversion of a full tile into a buffer with room is safe. -/
theorem isSafe_of_isFull {t : Tile} (ht : t.IsFull) (rects : List Rect) {dst : ByteArray}
    (hd : t.FitsIn dst) : t.IsSafe rects dst where
  pixels q hq x y hxy := by
    obtain ⟨r, -, hcut⟩ := List.mem_filterMap.mp hq
    obtain ⟨hx, hy⟩ := pixels_lt hcut hxy
    have hpixel : y * t.width + x < t.width * t.height := rowOffset_lt hy hx
    unfold IsFull at ht
    omega
  blocks q hq cx cy hc := by
    obtain ⟨r, -, hcut⟩ := List.mem_filterMap.mp hq
    obtain ⟨hx, hy⟩ := blocks_lt hcut hc
    refine ⟨?_, exists_sumOf?_blockPixels ht (by omega) hy⟩
    have hpair := chromaPair_lt hx hy
    simp only [FitsIn, PixelFormat.tileLength] at hd
    omega
  completes := by
    obtain ⟨out, hout, -⟩ := exists_convert ht rects hd
    exact ⟨out, hout⟩

end RgbConversion.Tile

/-- The packed tile of an update, as it is converted. -/
def SurfaceUpdate.packedTile (u : SurfaceUpdate) : RgbConversion.Tile :=
  ⟨u.data, u.format, u.tileWidth, u.tileHeight⟩

/-- The buffer the packed tile of an update is converted into. -/
def SurfaceUpdate.convertedTile (u : SurfaceUpdate) : ByteArray :=
  Bytes.zeros (PixelFormat.nv12.tileLength u.tileWidth u.tileHeight)

/-- The buffer for a converted tile has room for it. -/
theorem fitsIn_convertedTile (u : SurfaceUpdate) : u.packedTile.FitsIn u.convertedTile :=
  Nat.le_of_eq (Bytes.size_zeros _).symm

/-- The packed tile of a resolved update with pixels is full. -/
theorem isFull_of_resolve {c : Command} {u : SurfaceUpdate} (h : c.resolve = .ok u)
    (hpacked : u.format.isPackedRgb = true) (hdata : u.data.size ≠ 0) : u.packedTile.IsFull := by
  rcases Command.size_of_resolve h with hempty | hfull
  · exact absurd hempty hdata
  · unfold SurfaceUpdate.requiredLength at hfull
    cases hformat : u.format with
    | nv12 =>
      rw [hformat] at hpacked
      cases hpacked
    | bgra =>
      rw [hformat] at hfull
      exact hfull
    | rgba =>
      rw [hformat] at hfull
      exact hfull

/-- The pixels of a resolved update reach the encoder, and make a valid request. -/
theorem exists_encoderPixels {c : Command} {u : SurfaceUpdate} (h : c.resolve = .ok u)
    (config : PipelineConfig) :
    ∃ data, encoderPixels u = some data ∧ (requestOf config u data).validate = .ok () := by
  unfold encoderPixels
  split
  · next hpacked =>
    obtain ⟨out, hout, hfits⟩ := RgbConversion.Tile.exists_convert
      (isFull_of_resolve h hpacked.1 hpacked.2) u.rects (fitsIn_convertedTile u)
    exact ⟨out, hout, (EncodeRequest.validate_eq_ok_iff _).mpr (.inr ⟨rfl, hfits⟩)⟩
  · next hplain =>
    refine ⟨u.data, rfl, (EncodeRequest.validate_eq_ok_iff _).mpr ?_⟩
    by_cases hdata : u.data.size = 0
    · exact .inl hdata
    · have hnv12 : u.format = .nv12 := by
        cases hformat : u.format with
        | nv12 => rfl
        | bgra => exact absurd ⟨by rw [hformat]; rfl, hdata⟩ hplain
        | rgba => exact absurd ⟨by rw [hformat]; rfl, hdata⟩ hplain
      have hfull := (Command.size_of_resolve h).resolve_left hdata
      rw [SurfaceUpdate.requiredLength, hnv12] at hfull
      exact .inr ⟨rfl, hfull⟩

/-- Only a crash of the backend leaves a command without effects. -/
theorem effectsOfReply_eq_none_iff {config : PipelineConfig} {e : Envelope} {dest : ByteArray}
    {reply : EncodeReply} : effectsOfReply config e dest reply = none ↔ reply = .crashed := by
  unfold effectsOfReply
  split <;> simp

/-- Dealing with a command has effects, if the encode calls of the backend do not crash. -/
theorem isSome_effects_processCommand {β : Type} {B : Backend β} {backend : β}
    (hB : ∀ r dest, (B.encode backend r dest).1 ≠ .crashed) (config : PipelineConfig)
    (dest : ByteArray) (seq : Nat) (c : Command) :
    (processCommand B config backend dest seq c).effects.isSome := by
  unfold processCommand
  simp only
  split
  · rfl
  · next u hu =>
    obtain ⟨data, hdata, -⟩ := exists_encoderPixels hu config
    rw [hdata]
    simp only
    refine Option.isSome_iff_ne_none.mpr fun hnone => ?_
    exact hB _ _ (effectsOfReply_eq_none_iff.mp hnone)

namespace H264Backend

variable {P σ : Type} [Inhabited P] {B : H264Backend P σ}

/-- All that dealing with a command relies on, and that it comes to an end. -/
structure DealsWith (B : H264Backend P σ) (config : PipelineConfig) (s : H264State P σ)
    (dest : ByteArray) (seq : Nat) (c : Command) : Prop where
  /-- The command has effects: the encode thread goes on. -/
  completes : (processCommand B.toBackend config s dest seq c).effects.isSome
  conversion : ∀ u, c.resolve = .ok u → u.format.isPackedRgb = true → u.data.size ≠ 0 →
    u.packedTile.IsSafe u.rects u.convertedTile
  request : ∀ u, c.resolve = .ok u →
    ∃ data, encoderPixels u = some data ∧ (requestOf config u data).validate = .ok ()
  /-- Whatever context the request is given, its damage can be copied there. -/
  copy : ∀ u data, c.resolve = .ok u → encoderPixels u = some data → data.size ≠ 0 →
    ∀ flags host pool, B.prepare s (requestOf config u data) = (.ok flags, host, pool) →
      ∀ context, (pool.slot u.channelId).context = some context →
        CopyGeometry.IsSafe (layout B.encoder) (geometry (requestOf config u data)) data
          context.scratch u.rects
  scratch : ∀ u, c.resolve = .ok u → scratchBytes u.width u.height < 18446744073709551616
  /-- Coded units no longer than the destination are all laid into it, and none of them misses it
  if they are written without a look. -/
  units : ∀ layers, (CodedOutput.coded layers).length ≤ dest.size →
    (layUnits (CodedOutput.coded layers).units 0 dest).complete = true ∧
      (writeUnits (CodedOutput.coded layers).units 0 dest).isSome = true
  /-- The blocks the output is split into lie in the destination. -/
  blocks : ∀ u data, c.resolve = .ok u → encoderPixels u = some data → ∀ outcome out t,
    B.encode s (requestOf config u data) dest = (.done outcome, out, t) →
      let length := min outcome.bytesWritten out.size
      let chunk := chunkLength config.outputChunkBytes length
      ∀ i < chunkCount config.outputChunkBytes length,
        i * chunk ≤ min (i * chunk + chunk) length ∧ min (i * chunk + chunk) length ≤ out.size

/-- Dealing with a command has effects, if the sessions do not crash. -/
theorem isSome_effects (hE : B.engine.NeverCrashes) {s : H264State P σ} (hs : B.Reachable s)
    (config : PipelineConfig) (dest : ByteArray) (seq : Nat) (c : Command) :
    (processCommand B.toBackend config s dest seq c).effects.isSome :=
  isSome_effects_processCommand (encode_ne_crashed hE hs.isSound) config dest seq c

/-- Every command is dealt with in every state a backend can be in, if its sessions do not
crash. -/
theorem dealsWith_of_reachable (hE : B.engine.NeverCrashes) {s : H264State P σ}
    (hs : B.Reachable s) (config : PipelineConfig) (dest : ByteArray) (seq : Nat) (c : Command) :
    B.DealsWith config s dest seq c where
  completes := isSome_effects hE hs config dest seq c
  conversion u hu hpacked hdata :=
    RgbConversion.Tile.isSafe_of_isFull (isFull_of_resolve hu hpacked hdata) u.rects
      (fitsIn_convertedTile u)
  request u hu := exists_encoderPixels hu config
  copy u data hu hdata hpixels flags host pool hprepare context hcontext := by
    obtain ⟨data', hdata', hvalid⟩ := exists_encoderPixels hu config
    obtain rfl : data' = data := Option.some.inj (hdata'.symm.trans hdata)
    exact CopyGeometry.isSafe_of_fillsTile (fillsTile_of_validate hvalid hpixels)
      (hasRoom_of_size (size_scratch_of_prepare hs.isSound hprepare hcontext)) _ _
  scratch u _ := scratchBytes_lt u.width u.height
  units layers hlength := by
    have hcomplete := (complete_layUnits_zero_iff (.coded layers) dest).mpr hlength
    refine ⟨hcomplete, ?_⟩
    rw [writeUnits_eq, if_pos hcomplete]
    rfl
  blocks u data hu hdata outcome out t hencode := by
    intro length chunk i hi
    obtain ⟨hstart, hend⟩ := chunk_bounds hi
    exact ⟨hstart, Nat.le_trans hend (Nat.min_le_right _ _)⟩

/-- A move leaves the backend in a state it can be in. -/
theorem reachable_move {s t : System (H264State P σ)} {m : Mover} (hs : B.Reachable s.backend)
    (hmove : System.Moves B.toBackend s m t) : B.Reachable t.backend :=
  System.backend_move (fun _ r dest h => h.encode r dest) (fun _ h => h.release) hs hmove

end H264Backend

/-- An engine that opens every session and encodes nothing. -/
def Engine.still : Engine Unit Unit where
  name := "still"
  linked := true
  openSession s _ _ _ := (.ok (), s)
  encode s _ _ := (.output .skipped, s)
  allocate s _ := (true, s)

/-- The sessions of that engine never crash. -/
theorem Engine.neverCrashes_still : Engine.still.NeverCrashes := by
  intro state session picture h
  cases h

/-- A backend that has encoded a request deals with a packed tile of odd size at the last
coordinates. -/
theorem H264Backend.dealsWith_still :
    DealsWith ⟨.openH264, .still, .const ()⟩ default
      (encode ⟨.openH264, .still, .const ()⟩ (fresh ())
        ⟨5, 0, 0, 16, 16, 4, 4, .nv12, Bytes.zeros 24, [⟨0, 0, 4, 4⟩], .lan⟩ .empty).2.2 .empty 1
      (.surface ⟨Bytes.zeros 36, [⟨-1, 0, 2147483647, 2147483647⟩], -2147483648, 2147483647, 3, 3,
        3, 3, .bgra, 5, some 1⟩) :=
  dealsWith_of_reachable Engine.neverCrashes_still (.encode _ _ (.fresh ())) _ _ _ _

end FrameEncoder
