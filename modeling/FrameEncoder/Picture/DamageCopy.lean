import FrameEncoder.Picture
import FrameEncoder.Picture.Plane
import FrameEncoder.PixelFormat
import FrameEncoder.Rect

/-!
# Copying damage

Copies the damaged areas of a tile into a padded picture. The tile's pixels are a luma plane
and an interleaved chroma plane of the same pitch; the picture starts at the region's origin
and keeps its chroma interleaved or splits it into two planes.

Rectangles are cut to the tile and to the picture and copied in list order, so where they
overlap the last one counts. First all luma is copied, then all chroma.
-/

namespace FrameEncoder

/-- The sizes and the origin shared by all copies of one encode call. -/
structure CopyGeometry where
  left : Int32
  top : Int32
  tileWidth : Nat
  tileHeight : Nat
  paddedWidth : Nat
  paddedHeight : Nat
deriving DecidableEq, Repr

/-- The chroma samples to copy for one rectangle, in samples of either plane. -/
structure ChromaSpan where
  srcX : Nat
  srcY : Nat
  dstX : Nat
  dstY : Nat
  cols : Nat
  rows : Nat
deriving DecidableEq, Repr

namespace CopyGeometry

/-- The tile in screen coordinates. -/
def sourceRect (g : CopyGeometry) : Rect :=
  ⟨0, 0, Int32.ofNat g.tileWidth, Int32.ofNat g.tileHeight⟩

/-- The picture in screen coordinates. -/
def targetRect (g : CopyGeometry) : Rect :=
  ⟨g.left, g.top, Int32.ofNat g.paddedWidth, Int32.ofNat g.paddedHeight⟩

/-- The part of a rectangle that lies in the tile and in the picture. -/
def clip (g : CopyGeometry) (r : Rect) : Option Rect :=
  (r.intersect g.sourceRect).bind fun r => r.intersect g.targetRect

/-- The column of a screen column in the picture. -/
def columnOf (g : CopyGeometry) (x : Int32) : Nat := (x.toInt - g.left.toInt).toNat

/-- The row of a screen row in the picture. -/
def rowOf (g : CopyGeometry) (y : Int32) : Nat := (y.toInt - g.top.toInt).toNat

/-- The chroma of a cut rectangle: half its size rounded up, from half its corner rounded down,
cut to the chroma planes of the tile and of the picture. -/
def chromaSpan (g : CopyGeometry) (r : Rect) : Option ChromaSpan :=
  let srcX := r.x.toInt.toNat / 2
  let srcY := r.y.toInt.toNat / 2
  let dstX := g.columnOf r.x / 2
  let dstY := g.rowOf r.y / 2
  let cols := min (min ((r.width.toInt.toNat + 1) / 2) (g.tileWidth / 2 - srcX))
    (g.paddedWidth / 2 - dstX)
  let rows := min (min ((r.height.toInt.toNat + 1) / 2)
    (PixelFormat.chromaRows g.tileHeight - srcY)) (g.paddedHeight / 2 - dstY)
  if cols > 0 ∧ rows > 0 then some { srcX, srcY, dstX, dstY, cols, rows } else none

/-- The bytes of the picture's luma plane. -/
def lumaLength (g : CopyGeometry) : Nat := g.paddedWidth * g.paddedHeight

/-- The bytes of one of the picture's separate chroma planes. -/
def chromaLength (g : CopyGeometry) : Nat := g.paddedWidth / 2 * (g.paddedHeight / 2)

/-- One luma row of a cut rectangle. -/
def lumaRow (g : CopyGeometry) (src : ByteArray) (r : Rect) (row : Nat) : Transfer where
  source := .whole src
  target := ⟨0, g.lumaLength⟩
  src := (r.y.toInt.toNat + row) * g.tileWidth + r.x.toInt.toNat
  srcStep := 1
  dst := (g.rowOf r.y + row) * g.paddedWidth + g.columnOf r.x
  count := r.width.toInt.toNat

/-- The luma rows of a cut rectangle. -/
def lumaTransfers (g : CopyGeometry) (src : ByteArray) (r : Rect) : List Transfer :=
  (List.range r.height.toInt.toNat).map (g.lumaRow src r)

/-- The chroma plane of a tile. -/
def sourceChroma (g : CopyGeometry) (src : ByteArray) : Plane :=
  .after (g.tileWidth * g.tileHeight) src

/-- One chroma row of a span for one of the separate planes of the picture, which starts at
`start`: of each pair of bytes the one at `part`. -/
def planarRow (g : CopyGeometry) (src : ByteArray) (s : ChromaSpan) (row part start : Nat) :
    Transfer where
  source := g.sourceChroma src
  target := ⟨start, g.chromaLength⟩
  src := (s.srcY + row) * g.tileWidth + s.srcX * 2 + part
  srcStep := 2
  dst := (s.dstY + row) * (g.paddedWidth / 2) + s.dstX
  count := s.cols

/-- The chroma rows of a span, split into the two separate planes of the picture. -/
def planarTransfers (g : CopyGeometry) (src : ByteArray) (s : ChromaSpan) : List Transfer :=
  (List.range s.rows).flatMap fun row =>
    [g.planarRow src s row 0 g.lumaLength,
      g.planarRow src s row 1 (g.lumaLength + g.chromaLength)]

/-- One chroma row of a span, kept interleaved. -/
def interleavedRow (g : CopyGeometry) (src dst : ByteArray) (s : ChromaSpan) (row : Nat) :
    Transfer where
  source := g.sourceChroma src
  target := .after g.lumaLength dst
  src := (s.srcY + row) * g.tileWidth + s.srcX * 2
  srcStep := 1
  dst := (s.dstY + row) * g.paddedWidth + s.dstX * 2
  count := s.cols * 2

/-- The chroma rows of a span, kept interleaved. -/
def interleavedTransfers (g : CopyGeometry) (src dst : ByteArray) (s : ChromaSpan) :
    List Transfer :=
  (List.range s.rows).map (g.interleavedRow src dst s)

/-- The chroma spans of a list of rectangles. -/
def spans (g : CopyGeometry) (rects : List Rect) : List ChromaSpan :=
  (rects.filterMap g.clip).filterMap g.chromaSpan

/-- The chroma rows of a span, for a picture of a given layout. -/
def chromaTransfers (layout : PlaneLayout) (g : CopyGeometry) (src dst : ByteArray)
    (s : ChromaSpan) : List Transfer :=
  match layout with
  | .i420 => g.planarTransfers src s
  | .nv12 => g.interleavedTransfers src dst s

/-- All that is copied, in order: the luma of every rectangle, then the chroma of every span. -/
def transfers (layout : PlaneLayout) (g : CopyGeometry) (src dst : ByteArray)
    (rects : List Rect) : List Transfer :=
  (rects.filterMap g.clip).flatMap (g.lumaTransfers src) ++
    (g.spans rects).flatMap (g.chromaTransfers layout src dst)

/-- The bytes a picture is split into planes by before anything is copied. Interleaved chroma
takes whatever follows the luma. -/
def splitLength (layout : PlaneLayout) (g : CopyGeometry) : Nat :=
  match layout with
  | .i420 => g.lumaLength + 2 * g.chromaLength
  | .nv12 => g.lumaLength

/-- Copy the damage into a picture of a given layout. There is no result if the tile or the
picture is too short for its planes. -/
def copy (layout : PlaneLayout) (g : CopyGeometry) (src dst : ByteArray) (rects : List Rect) :
    Option ByteArray :=
  if g.splitLength layout ≤ dst.size ∧ g.tileWidth * g.tileHeight ≤ src.size then
    Transfer.runAll src (g.transfers layout src dst rects) dst
  else none

end CopyGeometry

end FrameEncoder
