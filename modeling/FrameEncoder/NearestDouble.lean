/-!
# Nearest doubles

The 64-bit floating-point number nearest to a fraction or to a decimal, ties to the even one.
The value is found as a whole number of units of a power of two, so that rounding is exact at
every magnitude, the smallest included.
-/

namespace FrameEncoder.NearestDouble

/-- A fraction as a whole number of units: the quotient rounded to the nearest, ties to even. -/
def roundDiv (num den : Nat) : Nat :=
  let q := num / den
  let r := num % den
  if 2 * r > den ∨ 2 * r = den ∧ q % 2 = 1 then q + 1 else q

/-- A fraction over a power of two, as numerator and denominator. -/
def scaled (num den : Nat) (e : Int) : Nat × Nat :=
  if e < 0 then (num <<< (-e).toNat, den) else (num, den <<< e.toNat)

/-- The least significand of a double that has all its bits. -/
def fullSignificand : Nat := 1 <<< 52

/-- The bits of infinity: the exponent beyond the greatest. -/
def infinityBits : Nat := 2047 * fullSignificand

/-- The exponent of the unit for a fraction: the one that leaves 53 bits before the point, but
never less than the least there is. -/
def unitExponent (num den : Nat) : Int :=
  let e := (num.log2 : Int) - den.log2 - 52
  let (n, d) := scaled num den e
  max (if n < fullSignificand * d then e - 1 else e) (-1074)

/-- The bits of the double nearest to a fraction; infinity is beyond the greatest. -/
def bitsOfFraction (num den : Nat) : UInt64 :=
  if num = 0 then 0 else
    let e := unitExponent num den
    let (n, d) := scaled num den e
    let q := roundDiv n d
    let bits :=
      if q < fullSignificand then q
      else (e + 1075).toNat * fullSignificand + (q - fullSignificand)
    UInt64.ofNat (min bits infinityBits)

/-- The number of decimal digits of a number, one at least. -/
def digitCount (n : Nat) : Nat := (Nat.toDigits 10 n).length

/-- The double nearest to `mantissa · 10 ^ exponent`. What is far beyond the greatest double or
far below the least is not computed. -/
def ofDecimal (mantissa : Nat) (exponent : Int) : Float :=
  let magnitude := (digitCount mantissa : Int) + exponent
  if mantissa = 0 ∨ magnitude < -400 then Float.ofBits 0
  else if magnitude > 400 then Float.ofBits (UInt64.ofNat infinityBits)
  else if exponent < 0 then Float.ofBits (bitsOfFraction mantissa (Nat.pow 10 (-exponent).toNat))
  else Float.ofBits (bitsOfFraction (mantissa * Nat.pow 10 exponent.toNat) 1)

end FrameEncoder.NearestDouble
