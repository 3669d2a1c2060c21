import FrameEncoder.Bytes

/-!
# Digests

The 64-bit FNV-1a digest of a buffer, and lower-case hexadecimal text.
-/

namespace FrameEncoder.Bytes

/-- The digest of a buffer: each byte is mixed in and the result multiplied, from a fixed start. -/
def fnv1a64 (b : ByteArray) : UInt64 :=
  b.foldl (fun h byte => (h ^^^ byte.toUInt64) * 0x100000001b3) 0xcbf29ce484222325

/-- The eight bytes of a word, high byte first. -/
def bigEndian64 (w : UInt64) : List UInt8 :=
  [56, 48, 40, 32, 24, 16, 8, 0].map fun shift : UInt64 => (w >>> shift).toUInt8

/-- The hexadecimal digit of a number below sixteen. -/
def hexDigit (n : Nat) : Char := Nat.digitChar n

/-- The two hexadecimal digits of a byte. -/
def hexByte (b : UInt8) : List Char := [hexDigit (b.toNat / 16), hexDigit (b.toNat % 16)]

/-- Bytes as hexadecimal text. -/
def hex (bytes : List UInt8) : String := String.ofList (bytes.flatMap hexByte)

end FrameEncoder.Bytes
