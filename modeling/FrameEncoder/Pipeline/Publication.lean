import FrameEncoder.Backend
import FrameEncoder.Command
import FrameEncoder.Picture.RgbConversion
import FrameEncoder.Pipeline.Config
import FrameEncoder.Pipeline.Result

/-!
# From a command to its results

What the encode thread makes of one command. The command is resolved, its pixels are converted if
need be, the backend is called once, and its reply becomes a list of effects: counts, flow marks
and the results themselves, in the order in which others come to see them.
-/

namespace FrameEncoder

/-- One change the encode thread makes that others can see. -/
inductive Effect where
  /-- Count a created context. -/
  | countReinit
  /-- Count a skipped command. -/
  | countSkipped
  /-- Count a failed encode call. -/
  | countFailed
  /-- Count a result with its payload. -/
  | countResult (payload : Nat)
  /-- Mark a frame as sent. -/
  | markSent (frameId : UInt32)
  /-- Hand a result to the receiver. -/
  | send (result : EncodeResult)
deriving DecidableEq

/-- How the results of a command are labelled. -/
structure Envelope where
  seq : Nat
  x : Int32
  y : Int32
  cx : Int32
  cy : Int32
  flags : ResultFlags
  frameId : Option UInt32
deriving DecidableEq, Repr

namespace Envelope

/-- The label of a command that describes no update. -/
def ofCommand (seq : Nat) (c : Command) : Envelope where
  seq
  x := 0
  y := 0
  cx := 0
  cy := 0
  flags := ⟨c.isGfx, c.frameId.isSome⟩
  frameId := c.frameId

/-- The label of a command that describes an update: it bears the update's region. -/
def withRegion (e : Envelope) (u : SurfaceUpdate) : Envelope :=
  { e with x := u.left, y := u.top, cx := u.width, cy := u.height }

/-- A result under a label. -/
def result (e : Envelope) (padBytes : Nat) (payload : ByteArray) (last continuation : Bool)
    (status : EncodeStatus) (encodeFlags : ContextFlags) : EncodeResult where
  data := Bytes.zeros padBytes ++ payload
  padBytes
  seq := e.seq
  x := e.x
  y := e.y
  cx := e.cx
  cy := e.cy
  flags := e.flags
  frameId := e.frameId
  last
  continuation
  status
  encodeFlags

end Envelope

/-- The bytes of a full block when `length` bytes are split by a limit, if there is one. -/
def chunkLength (limit : Option Nat) (length : Nat) : Nat :=
  match limit with
  | some n => if n > 0 ∧ length > n then n else max length 1
  | none => max length 1

/-- The number of blocks `length` bytes are split into; no bytes still make one block. -/
def chunkCount (limit : Option Nat) (length : Nat) : Nat :=
  let chunk := chunkLength limit length
  max ((length + chunk - 1) / chunk) 1

/-- The first `length` bytes of a buffer, split into blocks. -/
def chunks (limit : Option Nat) (dest : ByteArray) (length : Nat) : List ByteArray :=
  let chunk := chunkLength limit length
  (List.range (chunkCount limit length)).map fun i =>
    dest.extract (i * chunk) (min (i * chunk + chunk) length)

/-- The results of coded output: one for each block. -/
def codedResults (config : PipelineConfig) (e : Envelope) (dest : ByteArray) (length : Nat)
    (flags : ContextFlags) : List EncodeResult :=
  let blocks := chunks config.outputChunkBytes dest length
  blocks.mapIdx fun i block =>
    e.result config.padBytes block (i + 1 = blocks.length) (0 < i) .encoded flags

/-- The result of a command without output. -/
def emptyResult (config : PipelineConfig) (e : Envelope) (status : EncodeStatus) : EncodeResult :=
  e.result config.padBytes .empty true false status .none

/-- Publish a result: it is counted first, then its frame is marked, then it is sent. -/
def publish (r : EncodeResult) : List Effect :=
  .countResult r.payload.size :: (r.completedFrame.toList.map .markSent ++ [.send r])

/-- The effects of a reply of the backend, given the destination after the call. -/
def effectsOfReply (config : PipelineConfig) (e : Envelope) (dest : ByteArray) :
    EncodeReply → Option (List Effect)
  | .done outcome =>
    let length := min outcome.bytesWritten dest.size
    let results := codedResults config e dest length outcome.flags
    some ((if outcome.flags.created then [.countReinit] else []) ++ results.flatMap publish)
  | .failed .frameSkipped => some (.countSkipped :: publish (emptyResult config e .skipped))
  | .failed error => some (.countFailed :: publish (emptyResult config e (.failed error)))
  | .crashed => none

/-- The pixels of an update as an encoder takes them. Packed colour is converted where it is
damaged and left zero elsewhere; there are none if the conversion fails. -/
def encoderPixels (u : SurfaceUpdate) : Option ByteArray :=
  if u.format.isPackedRgb ∧ u.data.size ≠ 0 then
    let tile : RgbConversion.Tile := ⟨u.data, u.format, u.tileWidth, u.tileHeight⟩
    tile.convert u.rects (Bytes.zeros (PixelFormat.nv12.tileLength u.tileWidth u.tileHeight))
  else some u.data

/-- The request for an update with its pixels. -/
def requestOf (config : PipelineConfig) (u : SurfaceUpdate) (data : ByteArray) : EncodeRequest where
  channelId := u.channelId
  left := u.left
  top := u.top
  width := u.width
  height := u.height
  tileWidth := u.tileWidth
  tileHeight := u.tileHeight
  format := .nv12
  data
  rects := u.rects
  connection := config.connection

/-- A command that has been dealt with: its effects, or none after a crash, with the destination
and the backend's state afterwards. -/
structure Processed (β : Type) where
  effects : Option (List Effect)
  dest : ByteArray
  backend : β

/-- Deal with one command. -/
def processCommand {β : Type} (B : Backend β) (config : PipelineConfig) (backend : β)
    (dest : ByteArray) (seq : Nat) (c : Command) : Processed β :=
  let e := Envelope.ofCommand seq c
  match c.resolve with
  | .error error =>
    ⟨some (publish (emptyResult config e (.failed (.invalidInput (.command error))))), dest, backend⟩
  | .ok u =>
    match encoderPixels u with
    | none => ⟨none, dest, backend⟩
    | some data =>
      let (reply, dest, backend) := B.encode backend (requestOf config u data) dest
      ⟨effectsOfReply config (e.withRegion u) dest reply, dest, backend⟩

end FrameEncoder
