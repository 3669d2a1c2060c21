import FrameEncoder.Backend
import FrameEncoder.Picture.DamageCopy

/-!
# H.264 backends

Two H.264 encoders over an engine. For a valid request either of them prepares the slot of its
channel, copies its damage into the slot's scratch picture, and lets the slot's session encode
that picture. Beyond that each has its own way: OpenH264 asks for a context first and for pixels
then, x264 the other way round, and they differ in the layout of the picture and in how coded
units reach the destination.

OpenH264 takes separate chroma planes, and its units are laid into the destination one by one, up
to the first that finds no room. x264 takes interleaved chroma, and its units are measured first
and then written without another look; for it an empty frame is a failure.
-/

namespace FrameEncoder

/-- An H.264 encoder over an engine, tuned by a table. -/
structure H264Backend (P σ : Type) where
  encoder : H264Encoder
  engine : Engine P σ
  table : ParamTable P

/-- The slots of an H.264 encoder and its library. -/
structure H264State (P σ : Type) where
  pool : Pool
  host : Host P σ

namespace H264Backend

/-- Put output into a destination unit by unit, up to the first that finds no room, and say how
many bytes that took. -/
def storeUnitByUnit (output : CodedOutput) (dest : ByteArray) :
    Except BackendError Nat × ByteArray :=
  match output with
  | .skipped => (.ok 0, dest)
  | .coded _ =>
    let laid := layUnits output.units 0 dest
    if laid.complete then (.ok laid.written, laid.dest)
    else (.error (.overflow output.length dest.size), laid.dest)

/-- Put output into a destination if there is output and all of it has room, and say how many
bytes that took. There is no result if a unit does not lie in the destination after all. -/
def storeMeasured (output : CodedOutput) (dest : ByteArray) :
    Option (Except BackendError Nat × ByteArray) :=
  let needed := output.length
  if needed = 0 then some (.error (.encodeFailed .emptyPayload), dest)
  else if needed > dest.size then some (.error (.overflow needed dest.size), dest)
  else (writeUnits output.units 0 dest).map fun (written, dest) => (.ok written, dest)

variable {P σ : Type} (B : H264Backend P σ)

/-- The state of an encoder nothing was asked of yet. -/
def fresh (state : σ) : H264State P σ := ⟨.empty, .fresh state⟩

/-- The copy of a request's damage into the scratch picture of its slot. -/
def geometry (r : EncodeRequest) : CopyGeometry where
  left := r.left
  top := r.top
  tileWidth := r.tileWidth
  tileHeight := r.tileHeight
  paddedWidth := paddedExtent r.width
  paddedHeight := paddedExtent r.height

/-- Make the slot of a request's channel ready for its region. -/
def prepare (s : H264State P σ) (r : EncodeRequest) :
    Except BackendError ContextFlags × Host P σ × Pool :=
  Pool.prepare B.engine s.host s.pool r.channelId r.width r.height
    (B.table.forEncode r.tuningClass)

/-- Encode a request with OpenH264. -/
def encodeOpenH264 (s : H264State P σ) (r : EncodeRequest) (dest : ByteArray) :
    EncodeReply × ByteArray × H264State P σ :=
  match r.validate with
  | .error fault => (.failed (.invalidInput fault), dest, s)
  | .ok () =>
    match B.prepare s r with
    | (.error e, host, pool) => (.failed e, dest, ⟨pool, host⟩)
    | (.ok flags, host, pool) =>
      match (pool.slot r.channelId).context with
      | none => (.done ⟨0, flags⟩, dest, ⟨pool, host⟩)
      | some c =>
        if r.data.size = 0 then (.done ⟨0, flags⟩, dest, ⟨pool, host⟩) else
        let geo := geometry r
        match geo.copy .i420 r.data c.scratch r.rects with
        | none => (.crashed, dest, ⟨pool, host⟩)
        | some scratch =>
          let pool := pool.setScratch r.channelId scratch
          let picture : Picture := ⟨geo.paddedWidth, geo.paddedHeight, .i420, scratch⟩
          match B.engine.encodeIn host c.session picture with
          | (.crashed, host) => (.crashed, dest, ⟨pool, host⟩)
          | (.failed e, host) => (.failed (.encodeFailed (.engine e)), dest, ⟨pool, host⟩)
          | (.output output, host) =>
            if output = .skipped then (.failed .frameSkipped, dest, ⟨pool, host⟩) else
            match storeUnitByUnit output dest with
            | (.ok bytesWritten, dest) => (.done ⟨bytesWritten, flags⟩, dest, ⟨pool, host⟩)
            | (.error e, dest) => (.failed e, dest, ⟨pool, host⟩)

/-- Encode a request with x264. -/
def encodeX264 (s : H264State P σ) (r : EncodeRequest) (dest : ByteArray) :
    EncodeReply × ByteArray × H264State P σ :=
  match r.validate with
  | .error fault => (.failed (.invalidInput fault), dest, s)
  | .ok () =>
    match B.prepare s r with
    | (.error e, host, pool) => (.failed e, dest, ⟨pool, host⟩)
    | (.ok flags, host, pool) =>
      let idle : EncodeReply := .done ⟨0, flags⟩
      if r.data.size = 0 then (idle, dest, ⟨pool, host⟩) else
      match (pool.slot r.channelId).context with
      | none => (idle, dest, ⟨pool, host⟩)
      | some c =>
        let geo := geometry r
        match geo.copy .nv12 r.data c.scratch r.rects with
        | none => (.crashed, dest, ⟨pool, host⟩)
        | some scratch =>
          let pool := pool.setScratch r.channelId scratch
          let picture : Picture := ⟨geo.paddedWidth, geo.paddedHeight, .nv12, scratch⟩
          match B.engine.encodeIn host c.session picture with
          | (.crashed, host) => (.crashed, dest, ⟨pool, host⟩)
          | (.failed e, host) => (.failed (.encodeFailed (.engine e)), dest, ⟨pool, host⟩)
          | (.output .skipped, host) => (.failed .frameSkipped, dest, ⟨pool, host⟩)
          | (.output output, host) =>
            match storeMeasured output dest with
            | none => (.crashed, dest, ⟨pool, host⟩)
            | some (.ok bytesWritten, dest) => (.done ⟨bytesWritten, flags⟩, dest, ⟨pool, host⟩)
            | some (.error e, dest) => (.failed e, dest, ⟨pool, host⟩)

/-- Encode a request. -/
def encode (s : H264State P σ) (r : EncodeRequest) (dest : ByteArray) :
    EncodeReply × ByteArray × H264State P σ :=
  match B.encoder with
  | .openH264 => B.encodeOpenH264 s r dest
  | .x264 => B.encodeX264 s r dest

/-- Whether the library of an encoder works. -/
def selfTest [Inhabited P] (s : H264State P σ) : Bool × H264State P σ :=
  let (ok, host) := B.engine.selfTest s.host
  (ok, { s with host })

/-- Destroy every context. -/
def release (s : H264State P σ) : H264State P σ :=
  let (host, pool) := Pool.clear s.host s.pool
  ⟨pool, host⟩

/-- The backend of an H.264 encoder. -/
def toBackend [Inhabited P] : Backend (H264State P σ) where
  encoder := B.encoder
  selfTest := B.selfTest
  encode := B.encode
  release := release

end H264Backend

end FrameEncoder
