/-!
# Byte buffers

The few buffer operations the encoder needs beyond those of `ByteArray`: zeroed buffers,
buffers given by a function of the index, windows, and little-endian words on byte lists.
Each comes with its law on the list of bytes.
-/

namespace FrameEncoder.Bytes

/-- The bytes of a buffer, first byte first. -/
def toList (b : ByteArray) : List UInt8 := b.data.toList

/-- Buffers with the same bytes are equal. -/
theorem ext {a b : ByteArray} (h : toList a = toList b) : a = b := by
  cases a
  cases b
  congr 1
  exact Array.toList_inj.mp h

/-- Buffers are compared byte by byte. -/
instance decEq : DecidableEq ByteArray := fun a b =>
  decidable_of_iff (toList a = toList b) ⟨ext, congrArg toList⟩

/-- A buffer has as many bytes as its list. -/
theorem length_toList (b : ByteArray) : (toList b).length = b.size := rfl

/-- Appended buffers list the bytes of both. -/
theorem toList_append (a b : ByteArray) : toList (a ++ b) = toList a ++ toList b := by
  simp [toList, ByteArray.data_append]

/-- A buffer of `n` zero bytes, built by doubling. -/
def zeros (n : Nat) : ByteArray :=
  if _h : n = 0 then .empty else
    let half := zeros (n / 2)
    if n % 2 = 0 then half ++ half else (half ++ half).push 0
termination_by n
decreasing_by exact Nat.div_lt_self (Nat.pos_of_ne_zero _h) (by decide)

/-- A zeroed buffer holds exactly `n` zeros. -/
theorem toList_zeros (n : Nat) : toList (zeros n) = List.replicate n 0 := by
  induction n using Nat.strongRecOn with
  | ind n ih =>
    rw [zeros]
    split
    · next h => subst h; rfl
    · next h =>
      have hi := ih (n / 2) (Nat.div_lt_self (Nat.pos_of_ne_zero h) (by decide))
      have he : toList (zeros (n / 2) ++ zeros (n / 2)) = List.replicate (n / 2 + n / 2) 0 := by
        rw [toList_append, hi, List.replicate_append_replicate]
      split
      · next hr =>
        rw [he]
        congr 1
        omega
      · next hr =>
        have hp : toList ((zeros (n / 2) ++ zeros (n / 2)).push 0) =
            toList (zeros (n / 2) ++ zeros (n / 2)) ++ List.replicate 1 0 := by
          simp [toList, ByteArray.data_push]
        rw [hp, he, List.replicate_append_replicate]
        congr 1
        omega

/-- A zeroed buffer has the requested size. -/
theorem size_zeros (n : Nat) : (zeros n).size = n := by
  rw [← length_toList, toList_zeros, List.length_replicate]

/-- The `n` bytes that follow those of `acc`, by a function of the index within them. -/
def generateFrom (f : Nat → UInt8) : Nat → Nat → ByteArray → ByteArray
  | 0, _, acc => acc
  | n + 1, i, acc => generateFrom f n (i + 1) (acc.push (f i))

/-- The buffer whose byte at `i` is `f i`. -/
@[inline] def generate (n : Nat) (f : Nat → UInt8) : ByteArray :=
  generateFrom f n 0 (.emptyWithCapacity n)

theorem toList_generateFrom (f : Nat → UInt8) (n i : Nat) (acc : ByteArray) :
    toList (generateFrom f n i acc) = toList acc ++ (List.range' i n).map f := by
  induction n generalizing i acc with
  | zero => simp [generateFrom]
  | succ n ih =>
    rw [generateFrom, ih]
    simp [toList, List.range'_succ, ByteArray.data_push]

/-- A generated buffer lists the values of its function. -/
theorem toList_generate (n : Nat) (f : Nat → UInt8) :
    toList (generate n f) = (List.range n).map f := by
  rw [generate, toList_generateFrom, ← List.range_eq_range']
  rfl

/-- A generated buffer has the requested size. -/
theorem size_generate (n : Nat) (f : Nat → UInt8) : (generate n f).size = n := by
  rw [← length_toList, toList_generate, List.length_map, List.length_range]

/-- A generated buffer has the value of its function at each offset. -/
theorem getElem?_generate {n i : Nat} (f : Nat → UInt8) (hi : i < n) :
    (toList (generate n f))[i]? = some (f i) := by
  rw [toList_generate, List.getElem?_map, List.getElem?_range hi, Option.map_some]

/-- The `len` bytes from `start` on, fewer where the buffer ends. -/
def window (b : ByteArray) (start len : Nat) : ByteArray := b.extract start (start + len)

/-- A window lists the bytes from its start on. -/
theorem toList_window (b : ByteArray) (start len : Nat) :
    toList (window b start len) = ((toList b).drop start).take len := by
  simp [toList, window, ByteArray.data_extract, List.extract_eq_take_drop]

/-- A window within the buffer has its full length. -/
theorem size_window {b : ByteArray} {start len : Nat} (h : start + len ≤ b.size) :
    (window b start len).size = len := by
  rw [← length_toList, toList_window, List.length_take, List.length_drop, length_toList]
  omega

/-- An offset of a window is one of the buffer from its start on. -/
theorem getElem?_window {len i : Nat} (b : ByteArray) (start : Nat) (hi : i < len) :
    (toList (window b start len))[i]? = (toList b)[start + i]? := by
  rw [toList_window, List.getElem?_take_of_lt hi, List.getElem?_drop]

/-- The buffer with `bytes` laid over it from `offset` on. -/
def overlay (b : ByteArray) (offset : Nat) (bytes : ByteArray) : ByteArray :=
  bytes.copySlice 0 b offset bytes.size

/-- An overlay keeps what lies before and after it. -/
theorem toList_overlay (b bytes : ByteArray) (offset : Nat) :
    toList (overlay b offset bytes) =
      (toList b).take offset ++ toList bytes ++ (toList b).drop (offset + bytes.size) := by
  have hs : bytes.data.size = bytes.size := rfl
  have hb : b.data.size = b.size := rfl
  simp only [overlay, toList, ByteArray.copySlice, Array.toList_append, Array.toList_extract,
    List.extract_eq_take_drop, Nat.sub_zero, Nat.zero_add, List.drop_zero, hs, hb, Nat.min_self]
  rw [List.take_of_length_le (l := bytes.data.toList) (by simp [hs]),
    List.take_of_length_le (l := List.drop _ _) (by simp [hb])]

/-- An overlay that fits keeps the size. -/
theorem size_overlay (b bytes : ByteArray) (offset : Nat) (h : offset + bytes.size ≤ b.size) :
    (overlay b offset bytes).size = b.size := by
  rw [← length_toList, toList_overlay]
  simp only [List.length_append, List.length_take, List.length_drop, length_toList]
  omega

/-- The buffer with `bytes` written from `offset` on. There is none if they do not lie in it. -/
def write? (b : ByteArray) (offset : Nat) (bytes : ByteArray) : Option ByteArray :=
  if offset + bytes.size ≤ b.size then some (overlay b offset bytes) else none

/-- The number of bytes in several buffers. -/
def totalSize : List ByteArray → Nat
  | [] => 0
  | b :: bs => b.size + totalSize bs

/-- Buffers in two lists have as many bytes as those of either. -/
theorem totalSize_append (as bs : List ByteArray) :
    totalSize (as ++ bs) = totalSize as + totalSize bs := by
  induction as with
  | nil => simp [totalSize]
  | cons a as ih => simp [totalSize, ih, Nat.add_assoc]

/-- The two bytes of a word, low byte first. -/
def ofUInt16 (w : UInt16) : List UInt8 := [w.toUInt8, (w >>> 8).toUInt8]

/-- The four bytes of a word, low byte first. -/
def ofUInt32 (w : UInt32) : List UInt8 :=
  [w.toUInt8, (w >>> 8).toUInt8, (w >>> 16).toUInt8, (w >>> 24).toUInt8]

/-- The byte at an offset, zero past the end. -/
def byteAt (bytes : List UInt8) (i : Nat) : UInt8 := bytes[i]?.getD 0

/-- The little-endian 16-bit word at an offset. -/
def word16At (bytes : List UInt8) (i : Nat) : UInt16 :=
  (byteAt bytes i).toUInt16 ||| ((byteAt bytes (i + 1)).toUInt16 <<< 8)

/-- The little-endian 32-bit word at an offset. -/
def word32At (bytes : List UInt8) (i : Nat) : UInt32 :=
  (word16At bytes i).toUInt32 ||| ((word16At bytes (i + 2)).toUInt32 <<< 16)

end FrameEncoder.Bytes
