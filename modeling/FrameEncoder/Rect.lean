/-!
# Damage rectangles

Rectangles in screen coordinates with 32-bit fields. Their far edges saturate at the ends of
the 32-bit range, so a rectangle that reaches past the last coordinate ends there.
-/

namespace FrameEncoder

/-- The nearest 32-bit value to an integer. -/
def saturate32 (n : Int) : Int32 := Int32.ofInt (max (-2147483648) (min n 2147483647))

/-- A rectangle in screen coordinates. -/
structure Rect where
  x : Int32
  y : Int32
  width : Int32
  height : Int32
deriving DecidableEq, Repr, Inhabited

namespace Rect

/-- Whether a rectangle has no extent in some direction. -/
def isEmpty (r : Rect) : Bool := r.width ≤ 0 || r.height ≤ 0

/-- One past the last column, saturated. -/
def right (r : Rect) : Int32 := saturate32 (r.x.toInt + r.width.toInt)

/-- One past the last row, saturated. -/
def bottom (r : Rect) : Int32 := saturate32 (r.y.toInt + r.height.toInt)

/-- The common part of two rectangles, if it has any extent. -/
def intersect (a b : Rect) : Option Rect :=
  let x := max a.x b.x
  let y := max a.y b.y
  let r : Rect := {
    x, y
    width := saturate32 ((min a.right b.right).toInt - x.toInt)
    height := saturate32 ((min a.bottom b.bottom).toInt - y.toInt) }
  if r.isEmpty then none else some r

end Rect

/-- Saturation leaves a value in range alone and moves any other to the nearer end. -/
theorem toInt_saturate32 (n : Int) :
    (saturate32 n).toInt = max (-2147483648) (min n 2147483647) := by
  unfold saturate32
  exact Int32.toInt_ofInt_of_le (by omega) (by omega)

end FrameEncoder
