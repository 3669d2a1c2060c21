import FrameEncoder.FrameHeader

/-!
# Encode commands

What a session may ask of the encoder: a surface update, or a graphics command whose header
describes one. Resolving a command yields the update or the reason why there is none.
-/

namespace FrameEncoder

/-- Damaged regions of one surface, ready to encode. -/
structure SurfaceUpdate where
  /-- The pixels of the whole tile; no bytes at all only prepare the encoder. -/
  data : ByteArray
  rects : List Rect
  left : Int32
  top : Int32
  width : Int32
  height : Int32
  tileWidth : Nat
  tileHeight : Nat
  format : PixelFormat
  channelId : UInt32
  frameId : Option UInt32
deriving DecidableEq

namespace SurfaceUpdate

/-- The bytes the tile of an update needs. -/
def requiredLength (u : SurfaceUpdate) : Nat := u.format.tileLength u.tileWidth u.tileHeight

/-- Check that an update with pixels has enough of them. -/
def checkData (u : SurfaceUpdate) : Except CommandError Unit :=
  if u.data.size ≠ 0 ∧ u.data.size < u.requiredLength then
    .error (.pixelDataTooShort u.requiredLength u.data.size)
  else .ok ()

end SurfaceUpdate

/-- A command to the encoder. -/
inductive Command where
  | surface (update : SurfaceUpdate)
  /-- An encoded header with the pixels it speaks of, if any came along. -/
  | gfx (header : ByteArray) (payload : Option ByteArray)
deriving DecidableEq

namespace Command

/-- Whether a command came over the graphics channel. -/
def isGfx : Command → Bool
  | surface _ => false
  | gfx _ _ => true

/-- The frame id of a command; a malformed header carries none. -/
def frameId : Command → Option UInt32
  | surface update => update.frameId
  | gfx header _ =>
    match FrameHeader.decode header with
    | .ok h => h.frameId
    | .error _ => none

/-- The update a header and its pixels describe. -/
def ofHeader (h : FrameHeader) (payload : Option ByteArray) : SurfaceUpdate where
  data := payload.getD .empty
  rects := h.rects
  left := h.left.toInt32
  top := h.top.toInt32
  width := h.width.toUInt32.toInt32
  height := h.height.toUInt32.toInt32
  tileWidth := h.tileWidth.toNat
  tileHeight := h.tileHeight.toNat
  format := h.format
  channelId := h.surfaceId
  frameId := h.frameId

/-- The update a command describes, before its pixels are counted. Without a payload a header
may name no damage. -/
def describe : Command → Except CommandError SurfaceUpdate
  | surface update => .ok update
  | gfx header payload => do
    let h ← FrameHeader.decode header
    if payload.isNone ∧ h.rects ≠ [] then .error .missingPayload
    else .ok (ofHeader h payload)

/-- The update a command describes, with enough pixels for its tile or none. -/
def resolve (c : Command) : Except CommandError SurfaceUpdate := do
  let update ← c.describe
  update.checkData
  return update

/-- A resolved command has no pixels or enough of them. -/
theorem size_of_resolve {c : Command} {u : SurfaceUpdate} (h : c.resolve = .ok u) :
    u.data.size = 0 ∨ u.requiredLength ≤ u.data.size := by
  unfold resolve at h
  cases hd : c.describe with
  | error e => simp [hd, bind, Except.bind] at h
  | ok v =>
    simp only [hd, bind, Except.bind, SurfaceUpdate.checkData] at h
    split at h
    · cases h
    · next hc =>
      cases h
      split at hc
      · cases hc
      · omega

end Command

end FrameEncoder
