import FrameEncoder.Picture.Plane
import FrameEncoder.PixelFormat
import FrameEncoder.Rect

/-!
# Converting packed colour

Turns the damaged areas of a packed 32-bit colour tile into luma and interleaved chroma of the
same size, by the BT.601 rule for limited range. Chroma is taken from the mean of each block of
two by two pixels, where a block at an odd edge has fewer pixels.
-/

namespace FrameEncoder.RgbConversion

/-- The colour of a pixel, or the sum of several. -/
structure Colour where
  red : Nat
  green : Nat
  blue : Nat
deriving DecidableEq, Repr

namespace Colour

/-- The sum of two colours, channel by channel. -/
def add (a b : Colour) : Colour := ⟨a.red + b.red, a.green + b.green, a.blue + b.blue⟩

/-- The mean of `n` colours with a given sum, rounded down. -/
def mean (sum : Colour) (n : Nat) : Colour := ⟨sum.red / n, sum.green / n, sum.blue / n⟩

/-- The luma of a colour. -/
def luma (c : Colour) : UInt8 :=
  UInt8.ofNat ((66 * c.red + 129 * c.green + 25 * c.blue + 128) / 256 + 16)

/-- The blue difference of a colour. -/
def chromaU (c : Colour) : UInt8 :=
  UInt8.ofInt ((-38 * (c.red : Int) - 74 * c.green + 112 * c.blue + 128) / 256 + 128)

/-- The red difference of a colour. -/
def chromaV (c : Colour) : UInt8 :=
  UInt8.ofInt ((112 * (c.red : Int) - 94 * c.green - 18 * c.blue + 128) / 256 + 128)

end Colour

/-- A block of points: `cols` columns from `x` on and `rows` rows from `y` on. -/
structure Grid where
  x : Nat
  cols : Nat
  y : Nat
  rows : Nat
deriving DecidableEq, Repr

/-- Visit the points of a grid row by row. -/
@[specialize] def Grid.visit (g : Grid) (f : Nat → Nat → ByteArray → Option ByteArray)
    (dst : ByteArray) : Option ByteArray :=
  (List.range' g.y g.rows).foldlM (fun dst y =>
    (List.range' g.x g.cols).foldlM (fun dst x => f x y dst) dst) dst

/-- A packed tile. -/
structure Tile where
  data : ByteArray
  format : PixelFormat
  width : Nat
  height : Nat

namespace Tile

/-- The tile as a rectangle. -/
def rect (t : Tile) : Rect := ⟨0, 0, Int32.ofNat t.width, Int32.ofNat t.height⟩

/-- The colour of the pixel at a column and a row. -/
def colourAt? (t : Tile) (x y : Nat) : Option Colour :=
  let first := (y * t.width + x) * 4
  let plane := Plane.whole t.data
  match plane.read? t.data first, plane.read? t.data (first + 1),
      plane.read? t.data (first + 2) with
  | some a, some b, some c =>
    match t.format with
    | .rgba => some ⟨a.toNat, b.toNat, c.toNat⟩
    | _ => some ⟨c.toNat, b.toNat, a.toNat⟩
  | _, _, _ => none

/-- Add up the colours of those of the given pixels that lie in the tile, and count them. -/
def sumOf? (t : Tile) : List (Nat × Nat) → Option (Colour × Nat)
  | [] => some (⟨0, 0, 0⟩, 0)
  | (x, y) :: rest =>
    if x < t.width ∧ y < t.height then
      match t.colourAt? x y, t.sumOf? rest with
      | some c, some (sum, n) => some (c.add sum, n + 1)
      | _, _ => none
    else t.sumOf? rest

/-- The four pixels of a block. -/
def blockPixels (cx cy : Nat) : List (Nat × Nat) :=
  [(cx * 2, cy * 2), (cx * 2 + 1, cy * 2), (cx * 2, cy * 2 + 1), (cx * 2 + 1, cy * 2 + 1)]

/-- The mean colour of a block; a block without pixels has none. -/
def blockMean? (t : Tile) (cx cy : Nat) : Option Colour :=
  match t.sumOf? (blockPixels cx cy) with
  | some (sum, n) => if n = 0 then none else some (sum.mean n)
  | none => none

/-- The luma plane of the converted tile. -/
def lumaPlane (t : Tile) : Plane := ⟨0, t.width * t.height⟩

/-- The chroma plane of the converted tile. -/
def chromaPlane (t : Tile) (dst : ByteArray) : Plane := .after (t.width * t.height) dst

/-- Write the luma of one pixel. -/
def writeLuma (t : Tile) (x y : Nat) (dst : ByteArray) : Option ByteArray :=
  match t.colourAt? x y with
  | some c => t.lumaPlane.write? dst (y * t.width + x) c.luma
  | none => none

/-- Write the chroma of one block. -/
def writeChroma (t : Tile) (cx cy : Nat) (dst : ByteArray) : Option ByteArray :=
  match t.blockMean? cx cy with
  | some c =>
    let d := cy * t.width + cx * 2
    match (t.chromaPlane dst).write? dst d c.chromaU with
    | some dst => (t.chromaPlane dst).write? dst (d + 1) c.chromaV
    | none => none
  | none => none

/-- The pixels of a rectangle that lies in the tile. -/
def pixels (r : Rect) : Grid where
  x := r.x.toInt.toNat
  cols := r.width.toInt.toNat
  y := r.y.toInt.toNat
  rows := r.height.toInt.toNat

/-- The blocks a rectangle of the tile touches, a last odd column excepted. -/
def blocks (t : Tile) (r : Rect) : Grid :=
  let p := pixels r
  { x := p.x / 2
    cols := min ((p.x + p.cols + 1) / 2) (t.width / 2) - p.x / 2
    y := p.y / 2
    rows := (p.y + p.rows + 1) / 2 - p.y / 2 }

/-- Convert one rectangle that lies in the tile: its pixels' luma, then the chroma of its
blocks. -/
def convertRect (t : Tile) (dst : ByteArray) (r : Rect) : Option ByteArray :=
  match (pixels r).visit t.writeLuma dst with
  | some dst => (t.blocks r).visit t.writeChroma dst
  | none => none

/-- Convert the damage of a tile into a buffer of luma and interleaved chroma. There is no result
if the buffer is too short. -/
def convert (t : Tile) (rects : List Rect) (dst : ByteArray) : Option ByteArray :=
  if t.width * t.height ≤ dst.size then
    (rects.filterMap fun r => r.intersect t.rect).foldlM t.convertRect dst
  else none

end Tile

end FrameEncoder.RgbConversion
