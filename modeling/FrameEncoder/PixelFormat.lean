/-!
# Pixel formats

The layouts of pixel data a command may carry, their one-byte codes and the number of bytes a
tile needs in each.
-/

namespace FrameEncoder

/-- Layout of the pixels of a tile. -/
inductive PixelFormat where
  /-- A luma plane, then an interleaved chroma plane of half as many rows, rounded up. -/
  | nv12
  /-- Four bytes a pixel: blue, green, red, unused. -/
  | bgra
  /-- Four bytes a pixel: red, green, blue, unused. -/
  | rgba
deriving DecidableEq, Repr, Inhabited

namespace PixelFormat

/-- The code of a format in a frame header. -/
def code : PixelFormat → UInt8
  | nv12 => 0
  | bgra => 1
  | rgba => 2

/-- The format of a code, if the code is known. -/
def ofCode? (code : UInt8) : Option PixelFormat :=
  if code = 0 then some nv12
  else if code = 1 then some bgra
  else if code = 2 then some rgba
  else none

/-- The name of a format in messages. -/
def name : PixelFormat → String
  | nv12 => "Nv12"
  | bgra => "Bgra32"
  | rgba => "Rgba32"

/-- Whether pixels have to be converted before an encoder can take them. -/
def isPackedRgb : PixelFormat → Bool
  | nv12 => false
  | bgra | rgba => true

/-- The number of chroma rows of a tile: half its rows, rounded up. -/
def chromaRows (height : Nat) : Nat := (height + 1) / 2

/-- The bytes a tile needs. The count is meant for tiles whose bytes a machine word can count: for
them, and only for them, it is what machine words come to (`tileLengthWord_eq_iff`). -/
def tileLength (format : PixelFormat) (width height : Nat) : Nat :=
  match format with
  | nv12 => width * height + width * chromaRows height
  | bgra | rgba => width * height * 4

/-- The bytes a tile needs, counted in machine words. -/
def tileLengthWord (format : PixelFormat) (width height : UInt64) : UInt64 :=
  match format with
  | nv12 => width * height + width * (height / 2 + height % 2)
  | bgra | rgba => width * height * 4

/-- Half the rows, rounded up, are counted without a carry. -/
theorem toNat_chromaRows (height : UInt64) :
    (height / 2 + height % 2).toNat = chromaRows height.toNat := by
  have hhalf : height.toNat / 2 + height.toNat % 2 = chromaRows height.toNat := by
    rw [chromaRows]
    omega
  have hle : chromaRows height.toNat ≤ height.toNat := by omega
  rw [UInt64.toNat_add, UInt64.toNat_div, UInt64.toNat_mod]
  exact (Nat.mod_eq_of_lt (hhalf ▸ Nat.lt_of_le_of_lt hle height.toNat_lt)).trans hhalf

/-- Machine words count the bytes of a tile but for multiples of what a word can hold. -/
theorem toNat_tileLengthWord (format : PixelFormat) (width height : UInt64) :
    (format.tileLengthWord width height).toNat =
      format.tileLength width.toNat height.toNat % UInt64.size := by
  cases format with
  | nv12 =>
    rw [tileLengthWord, UInt64.toNat_add, UInt64.toNat_mul, UInt64.toNat_mul, toNat_chromaRows,
      ← Nat.add_mod]
    rfl
  | bgra | rgba =>
    rw [tileLengthWord, UInt64.toNat_mul, UInt64.toNat_mul]
    exact Nat.mod_mul_mod _ _ _

/-- The count of bytes is what machine words come to exactly if a word can hold it. -/
theorem tileLengthWord_eq_iff (format : PixelFormat) (width height : UInt64) :
    (format.tileLengthWord width height).toNat = format.tileLength width.toNat height.toNat ↔
      format.tileLength width.toNat height.toNat < UInt64.size := by
  rw [toNat_tileLengthWord]
  exact ⟨fun h => h ▸ Nat.mod_lt _ (by decide), Nat.mod_eq_of_lt⟩

/-- The known codes are exactly those of the formats. -/
theorem ofCode?_eq_some_iff {c : UInt8} {f : PixelFormat} : ofCode? c = some f ↔ c = f.code := by
  cases f <;> grind [ofCode?, code]

end PixelFormat

end FrameEncoder
