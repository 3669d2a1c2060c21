import FrameEncoder.Backend.H264

/-!
# One form for both encode calls

OpenH264 and x264 encode by bodies of their own. Nothing comes of a request that has no context or
no pixels, whichever is asked for first; and units that were measured lie in their destination, so
writing them without another look lays them all. So the two bodies have one form in common, which
depends on the encoder only in the layout of the picture and in the rule of storing.
-/

namespace FrameEncoder

namespace H264Backend

/-- The picture layout an encoder takes. -/
def layout : H264Encoder → PlaneLayout
  | .openH264 => .i420
  | .x264 => .nv12

/-- Put coded layers into a destination by the rule of an encoder. Either rule lays units. -/
def store (encoder : H264Encoder) (layers : List Layer) (dest : ByteArray) :
    Except BackendError Nat × ByteArray :=
  let output := CodedOutput.coded layers
  let laid := layUnits output.units 0 dest
  match encoder with
  | .openH264 =>
    if laid.complete then (.ok laid.written, laid.dest)
    else (.error (.overflow output.length dest.size), laid.dest)
  | .x264 =>
    if output.length = 0 then (.error (.encodeFailed .emptyPayload), dest)
    else if output.length > dest.size then (.error (.overflow output.length dest.size), dest)
    else (.ok laid.written, laid.dest)

/-- Storing unit by unit is the rule of OpenH264. -/
theorem storeUnitByUnit_coded (layers : List Layer) (dest : ByteArray) :
    storeUnitByUnit (.coded layers) dest = store .openH264 layers dest := rfl

/-- Storing what was measured is the rule of x264, and no unit misses the destination. -/
theorem storeMeasured_coded (layers : List Layer) (dest : ByteArray) :
    storeMeasured (.coded layers) dest = some (store .x264 layers dest) := by
  simp only [storeMeasured, store]
  split
  · rfl
  · split
    · rfl
    · next hfits =>
      have hcomplete := (complete_layUnits_zero_iff (.coded layers) dest).mpr
        (Nat.le_of_not_gt hfits)
      rw [writeUnits_eq, if_pos hcomplete]
      rfl

/-- The picture a request is encoded from, given the scratch picture with its damage. -/
def pictureOf (encoder : H264Encoder) (r : EncodeRequest) (scratch : ByteArray) : Picture where
  width := paddedExtent r.width
  height := paddedExtent r.height
  layout := layout encoder
  data := scratch

variable {P σ : Type} (B : H264Backend P σ)

/-- Encode the picture of a context, with the flags of the call so far. -/
def encodePicture (s : H264State P σ) (session : SessionId) (picture : Picture)
    (flags : ContextFlags) (dest : ByteArray) : EncodeReply × ByteArray × H264State P σ :=
  match B.engine.encodeIn s.host session picture with
  | (.crashed, host) => (.crashed, dest, { s with host })
  | (.failed e, host) => (.failed (.encodeFailed (.engine e)), dest, { s with host })
  | (.output .skipped, host) => (.failed .frameSkipped, dest, { s with host })
  | (.output (.coded layers), host) =>
    match store B.encoder layers dest with
    | (.ok bytesWritten, dest) => (.done ⟨bytesWritten, flags⟩, dest, { s with host })
    | (.error e, dest) => (.failed e, dest, { s with host })

/-- Encode a valid request for a slot that has been prepared. Without a context or without
pixels there is nothing to encode. -/
def encodePrepared (s : H264State P σ) (r : EncodeRequest) (flags : ContextFlags)
    (dest : ByteArray) : EncodeReply × ByteArray × H264State P σ :=
  match (s.pool.slot r.channelId).context with
  | none => (.done ⟨0, flags⟩, dest, s)
  | some c =>
    if r.data.size = 0 then (.done ⟨0, flags⟩, dest, s) else
    match (geometry r).copy (layout B.encoder) r.data c.scratch r.rects with
    | none => (.crashed, dest, s)
    | some scratch =>
      B.encodePicture { s with pool := s.pool.setScratch r.channelId scratch } c.session
        (pictureOf B.encoder r scratch) flags dest

/-- Encode a request in the form that both bodies have. -/
def encodeInForm (s : H264State P σ) (r : EncodeRequest) (dest : ByteArray) :
    EncodeReply × ByteArray × H264State P σ :=
  match r.validate with
  | .error fault => (.failed (.invalidInput fault), dest, s)
  | .ok () =>
    match B.prepare s r with
    | (.error e, host, pool) => (.failed e, dest, ⟨pool, host⟩)
    | (.ok flags, host, pool) => B.encodePrepared ⟨pool, host⟩ r flags dest

variable {B}

/-- OpenH264 encodes in this form. -/
theorem encodeOpenH264_eq (hB : B.encoder = .openH264) (s : H264State P σ) (r : EncodeRequest)
    (dest : ByteArray) : B.encodeOpenH264 s r dest = B.encodeInForm s r dest := by
  unfold encodeOpenH264 encodeInForm
  cases r.validate with
  | error fault => rfl
  | ok =>
    simp only
    obtain ⟨reply, host, pool⟩ := B.prepare s r
    cases reply with
    | error e => rfl
    | ok flags =>
      simp only [encodePrepared, hB, layout]
      cases (pool.slot r.channelId).context with
      | none => rfl
      | some c =>
        by_cases hdata : r.data.size = 0
        · simp only [if_pos hdata]
        simp only [if_neg hdata]
        cases (geometry r).copy .i420 r.data c.scratch r.rects with
        | none => rfl
        | some scratch =>
          simp only [encodePicture, pictureOf, hB, layout, geometry]
          obtain ⟨answer, host⟩ := B.engine.encodeIn host c.session
            ⟨paddedExtent r.width, paddedExtent r.height, .i420, scratch⟩
          cases answer with
          | crashed => rfl
          | failed e => rfl
          | output o =>
            cases o with
            | skipped => rfl
            | coded layers => rfl

/-- So does x264: without pixels it does not matter whether there is a context. -/
theorem encodeX264_eq (hB : B.encoder = .x264) (s : H264State P σ) (r : EncodeRequest)
    (dest : ByteArray) : B.encodeX264 s r dest = B.encodeInForm s r dest := by
  unfold encodeX264 encodeInForm
  cases r.validate with
  | error fault => rfl
  | ok =>
    simp only
    obtain ⟨reply, host, pool⟩ := B.prepare s r
    cases reply with
    | error e => rfl
    | ok flags =>
      simp only [encodePrepared, hB, layout]
      by_cases hdata : r.data.size = 0
      · simp only [if_pos hdata]
        cases (pool.slot r.channelId).context <;> rfl
      simp only [if_neg hdata]
      cases (pool.slot r.channelId).context with
      | none => rfl
      | some c =>
        simp only
        cases (geometry r).copy .nv12 r.data c.scratch r.rects with
        | none => rfl
        | some scratch =>
          simp only [encodePicture, pictureOf, hB, layout, geometry]
          obtain ⟨answer, host⟩ := B.engine.encodeIn host c.session
            ⟨paddedExtent r.width, paddedExtent r.height, .nv12, scratch⟩
          cases answer with
          | crashed => rfl
          | failed e => rfl
          | output o =>
            cases o with
            | skipped => rfl
            | coded layers =>
              simp only [storeMeasured_coded]
              obtain ⟨result, dest⟩ := store .x264 layers dest
              cases result <;> rfl

/-- Every encode call has this form. -/
theorem encode_eq (B : H264Backend P σ) (s : H264State P σ) (r : EncodeRequest)
    (dest : ByteArray) : B.encode s r dest = B.encodeInForm s r dest := by
  unfold encode
  split
  · next hB => exact encodeOpenH264_eq hB s r dest
  · next hB => exact encodeX264_eq hB s r dest

end H264Backend

end FrameEncoder
