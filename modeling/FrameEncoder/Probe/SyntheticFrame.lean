import FrameEncoder.Command
import FrameEncoder.Probe.Config

/-!
# Synthetic frames

The frames of a workload: full-region updates whose content shifts from frame to frame.
-/

namespace FrameEncoder.Probe

/-- A number cut to a byte. -/
def lowByte (n : Nat) : UInt8 := UInt8.ofNat n

/-- The luma of a pixel runs along both directions. -/
def lumaPattern (width height shift : Nat) : ByteArray :=
  Bytes.generate (width * height) fun i => lowByte (i % max width 1 + i / max width 1 + shift)

/-- The pixels of a frame. The chroma of a planar frame is neutral; a packed pixel has its column,
its row and a mix of both in its channels. -/
def framePixels (format : PixelFormat) (width height shift : Nat) : ByteArray :=
  match format with
  | .nv12 =>
    lumaPattern width height shift ++
      Bytes.generate (width * PixelFormat.chromaRows height) fun _ => 128
  | .bgra | .rgba =>
    Bytes.generate (width * height * 4) fun i =>
      let row := i / 4 / max width 1
      let col := i / 4 % max width 1
      match i % 4 with
      | 0 => lowByte (col + shift)
      | 1 => lowByte (row + shift)
      | 2 => lowByte (col ^^^ row)
      | _ => 255

/-- The frame of a workload with a given place and id. -/
def syntheticFrame (w : Workload) (index frameId : UInt32) : SurfaceUpdate where
  data := framePixels w.pixelFormat w.width.toNat w.height.toNat index.toNat
  rects := [⟨0, 0, w.width.toInt32, w.height.toInt32⟩]
  left := 0
  top := 0
  width := w.width.toInt32
  height := w.height.toInt32
  tileWidth := w.width.toNat
  tileHeight := w.height.toNat
  format := w.pixelFormat
  channelId := index % max w.channels 1
  frameId := some frameId

end FrameEncoder.Probe
