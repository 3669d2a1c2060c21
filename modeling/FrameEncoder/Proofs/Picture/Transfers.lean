import FrameEncoder.Picture.Plane

/-!
# What transfers move

Transfers have a result exactly if every access of each of them lies in its planes. A byte of the
result is the source byte of the last transfer that writes there, or the byte that was there before
if none does. The result therefore depends on the last writers only, and running the same transfers
on it again changes nothing.
-/

namespace FrameEncoder

namespace Plane

/-- An offset that a plane and its buffer have can be read. -/
theorem exists_read? {p : Plane} {b : ByteArray} {i : Nat} (hi : i < p.size)
    (hb : p.start + i < b.size) :
    ∃ v, p.read? b i = some v ∧ (Bytes.toList b)[p.start + i]? = some v := by
  have hr : p.read? b i = some (b.get (p.start + i) hb) := dif_pos ⟨hi, hb⟩
  exact ⟨_, hr, (read?_eq_some_iff.mp hr).2⟩

/-- An offset that a plane and its buffer have can be written. -/
theorem exists_write? {p : Plane} {b : ByteArray} {i : Nat} (v : UInt8) (hi : i < p.size)
    (hb : p.start + i < b.size) :
    ∃ c, p.write? b i v = some c ∧ Bytes.toList c = (Bytes.toList b).set (p.start + i) v := by
  have hw : p.write? b i v = some (b.set (p.start + i) v hb) := dif_pos ⟨hi, hb⟩
  exact ⟨_, hw, (toList_of_write? hw).2.2⟩

/-- A write changes no other byte of the buffer. -/
theorem getElem?_of_write? {p : Plane} {b c : ByteArray} {i j : Nat} {v : UInt8}
    (h : p.write? b i v = some c) (hj : p.start + i ≠ j) :
    (Bytes.toList c)[j]? = (Bytes.toList b)[j]? := by
  rw [(toList_of_write? h).2.2, List.getElem?_set_ne hj]

end Plane

namespace Transfer

/-- Whether every byte a transfer reads and writes lies in its plane and in the plane's buffer. -/
def InBounds (t : Transfer) (src dst : ByteArray) : Prop :=
  ∀ k < t.count,
    t.src + k * t.srcStep < t.source.size ∧
      t.source.start + (t.src + k * t.srcStep) < src.size ∧
      t.dst + k < t.target.size ∧ t.target.start + (t.dst + k) < dst.size

/-- Only the size of the target buffer matters to the bounds. -/
theorem InBounds.of_size_eq {t : Transfer} {src dst out : ByteArray} (h : t.InBounds src dst)
    (hs : out.size = dst.size) : t.InBounds src out := by
  intro k hk
  rw [hs]
  exact h k hk

/-- The offset of the source buffer whose byte a transfer puts at an offset of the target buffer,
if it writes there. -/
def sourceOf? (t : Transfer) (j : Nat) : Option Nat :=
  let first := t.target.start + t.dst
  if first ≤ j ∧ j < first + t.count then some (t.source.start + t.src + (j - first) * t.srcStep)
  else none

/-- A transfer writes to the offsets of its run in the target buffer. -/
theorem sourceOf?_eq_some_iff {t : Transfer} {i j : Nat} :
    t.sourceOf? j = some i ↔
      (t.target.start + t.dst ≤ j ∧ j < t.target.start + t.dst + t.count) ∧
        i = t.source.start + t.src + (j - (t.target.start + t.dst)) * t.srcStep := by
  simp only [sourceOf?, Option.ite_none_right_eq_some, Option.some.injEq]
  exact and_congr_right fun _ => eq_comm

/-- The source offset of the last transfer that writes to an offset of the target buffer. -/
def lastSourceOf? : List Transfer → Nat → Option Nat
  | [], _ => none
  | t :: ts, j => (lastSourceOf? ts j).or (t.sourceOf? j)

/-- Later transfers are looked at first. -/
theorem lastSourceOf?_append (ts us : List Transfer) (j : Nat) :
    lastSourceOf? (ts ++ us) j = (lastSourceOf? us j).or (lastSourceOf? ts j) := by
  induction ts with
  | nil => simp [lastSourceOf?]
  | cons t ts ih => rw [List.cons_append, lastSourceOf?, ih, Option.or_assoc, lastSourceOf?]

/-- An offset no transfer writes to has no source. -/
theorem lastSourceOf?_eq_none {ts : List Transfer} {j : Nat}
    (h : ∀ t ∈ ts, t.sourceOf? j = none) : lastSourceOf? ts j = none := by
  induction ts with
  | nil => rfl
  | cons t ts ih =>
    rw [lastSourceOf?, ih fun u hu => h u (List.mem_cons_of_mem _ hu), h t List.mem_cons_self]
    rfl

/-- If the transfers that write to an offset all take one byte, the last of them does. -/
theorem lastSourceOf?_eq_some {ts : List Transfer} {i j : Nat}
    (hall : ∀ t ∈ ts, ∀ i', t.sourceOf? j = some i' → i' = i)
    (hex : ∃ t ∈ ts, (t.sourceOf? j).isSome) : lastSourceOf? ts j = some i := by
  induction ts with
  | nil =>
    obtain ⟨t, ht, -⟩ := hex
    cases ht
  | cons t ts ih =>
    have htail : ∀ u ∈ ts, ∀ i', u.sourceOf? j = some i' → i' = i :=
      fun u hu => hall u (List.mem_cons_of_mem _ hu)
    rw [lastSourceOf?]
    by_cases hts : ∃ u ∈ ts, (u.sourceOf? j).isSome
    · rw [ih htail hts]
      rfl
    · have hnone : ∀ u ∈ ts, u.sourceOf? j = none := by
        intro u hu
        exact Option.not_isSome_iff_eq_none.mp fun hs => hts ⟨u, hu, hs⟩
      obtain ⟨u, hu, hs⟩ := hex
      obtain ⟨i', hi'⟩ := Option.isSome_iff_exists.mp hs
      rcases List.mem_cons.mp hu with rfl | hu
      · rw [lastSourceOf?_eq_none hnone, hi', hall u List.mem_cons_self i' hi']
        rfl
      · rw [hnone u hu] at hi'
        cases hi'

/-- A row of bytes moves if each of them can be read and written; all other bytes stay. -/
theorem exists_moveFrom {t : Transfer} {src : ByteArray} (count s d : Nat) (dst : ByteArray)
    (h : ∀ k < count, s + k * t.srcStep < t.source.size ∧
      t.source.start + (s + k * t.srcStep) < src.size ∧
      d + k < t.target.size ∧ t.target.start + (d + k) < dst.size) :
    ∃ out, t.moveFrom src count s d dst = some out ∧ ∀ j, (Bytes.toList out)[j]? =
      if t.target.start + d ≤ j ∧ j < t.target.start + d + count then
        (Bytes.toList src)[t.source.start + s + (j - (t.target.start + d)) * t.srcStep]?
      else (Bytes.toList dst)[j]? := by
  induction count generalizing s d dst with
  | zero => exact ⟨dst, rfl, fun j => by rw [if_neg (by omega)]⟩
  | succ count ih =>
    obtain ⟨hs, hsb, hd, hdb⟩ := h 0 (Nat.succ_pos _)
    simp only [Nat.zero_mul, Nat.add_zero] at hs hsb hd hdb
    obtain ⟨v, hread, hv⟩ := Plane.exists_read? hs hsb
    obtain ⟨mid, hwrite, hmid⟩ := Plane.exists_write? v hd hdb
    have hrest : ∀ k < count, s + t.srcStep + k * t.srcStep < t.source.size ∧
        t.source.start + (s + t.srcStep + k * t.srcStep) < src.size ∧
        d + 1 + k < t.target.size ∧ t.target.start + (d + 1 + k) < mid.size := by
      intro k hk
      have hnext := h (k + 1) (Nat.succ_lt_succ hk)
      rw [Plane.size_of_write? hwrite, Nat.add_assoc s, Nat.add_comm t.srcStep, ← Nat.succ_mul,
        Nat.add_assoc d, Nat.add_comm 1]
      exact hnext
    obtain ⟨out, hout, hbytes⟩ := ih (s + t.srcStep) (d + 1) mid hrest
    refine ⟨out, by rw [moveFrom, hread]; simp only [hwrite, hout], fun j => ?_⟩
    rw [hbytes, hmid, List.getElem?_set]
    by_cases hfirst : t.target.start + d = j
    · have hlt : t.target.start + d < (Bytes.toList dst).length := hdb
      rw [if_neg (by omega), if_pos hfirst, if_pos hlt, if_pos (by omega), ← hv, ← hfirst,
        Nat.sub_self, Nat.zero_mul, Nat.add_zero]
    · rw [if_neg hfirst]
      by_cases hlater : t.target.start + (d + 1) ≤ j ∧ j < t.target.start + (d + 1) + count
      · rw [if_pos hlater, if_pos (by omega)]
        have hstep : j - (t.target.start + d) = j - (t.target.start + (d + 1)) + 1 := by omega
        rw [hstep, Nat.succ_mul]
        congr 1
        omega
      · rw [if_neg hlater, if_neg (by omega)]

/-- A transfer within its planes has a result. -/
theorem exists_run {t : Transfer} {src dst : ByteArray} (h : t.InBounds src dst) :
    ∃ out, t.run src dst = some out ∧ ∀ j, (Bytes.toList out)[j]? =
      (t.sourceOf? j).elim (Bytes.toList dst)[j]? fun i => (Bytes.toList src)[i]? := by
  obtain ⟨out, hout, hbytes⟩ := exists_moveFrom t.count t.src t.dst dst h
  refine ⟨out, hout, fun j => ?_⟩
  rw [hbytes, sourceOf?]
  split <;> rfl

/-- Transfers within their planes have a result, in which the last one to write somewhere
counts. -/
theorem exists_runAll {ts : List Transfer} {src dst : ByteArray}
    (h : ∀ t ∈ ts, t.InBounds src dst) :
    ∃ out, runAll src ts dst = some out ∧ ∀ j, (Bytes.toList out)[j]? =
      (lastSourceOf? ts j).elim (Bytes.toList dst)[j]? fun i => (Bytes.toList src)[i]? := by
  induction ts generalizing dst with
  | nil => exact ⟨dst, rfl, fun j => rfl⟩
  | cons t ts ih =>
    obtain ⟨mid, hrun, hmid⟩ := exists_run (h t List.mem_cons_self)
    have hsize : mid.size = dst.size := size_of_moveFrom hrun
    obtain ⟨out, hout, hbytes⟩ := ih fun u hu =>
      (h u (List.mem_cons_of_mem _ hu)).of_size_eq hsize
    refine ⟨out, by rw [runAll, hrun]; exact hout, fun j => ?_⟩
    rw [hbytes, lastSourceOf?]
    cases lastSourceOf? ts j with
    | none => exact hmid j
    | some i => rfl

/-- A row of bytes that moves can be read and written byte by byte. -/
theorem inBounds_of_moveFrom {t : Transfer} {src : ByteArray} {count s d : Nat}
    {dst out : ByteArray} (h : t.moveFrom src count s d dst = some out) :
    ∀ k < count, s + k * t.srcStep < t.source.size ∧
      t.source.start + (s + k * t.srcStep) < src.size ∧
      d + k < t.target.size ∧ t.target.start + (d + k) < dst.size := by
  induction count generalizing s d dst with
  | zero => exact fun k hk => absurd hk (Nat.not_lt_zero k)
  | succ count ih =>
    unfold moveFrom at h
    split at h
    · cases h
    · next v hread =>
      split at h
      · cases h
      · next mid hwrite =>
        obtain ⟨hs, hv⟩ := Plane.read?_eq_some_iff.mp hread
        have hsb : t.source.start + s < src.size := (List.getElem?_eq_some_iff.mp hv).1
        obtain ⟨hd, hdb, -⟩ := Plane.toList_of_write? hwrite
        intro k hk
        cases k with
        | zero =>
          simp only [Nat.zero_mul, Nat.add_zero]
          exact ⟨hs, hsb, hd, hdb⟩
        | succ k =>
          have hnext := ih h k (Nat.lt_of_succ_lt_succ hk)
          rw [Plane.size_of_write? hwrite, Nat.add_assoc s, Nat.add_comm t.srcStep,
            ← Nat.succ_mul, Nat.add_assoc d, Nat.add_comm 1] at hnext
          exact hnext

/-- Transfers have a result exactly if all of them stay within their planes. -/
theorem isSome_runAll_iff {ts : List Transfer} {src dst : ByteArray} :
    (runAll src ts dst).isSome ↔ ∀ t ∈ ts, t.InBounds src dst := by
  constructor
  · intro h
    obtain ⟨out, hout⟩ := Option.isSome_iff_exists.mp h
    induction ts generalizing dst with
    | nil => exact fun t ht => nomatch ht
    | cons t ts ih =>
      unfold runAll at hout
      split at hout
      · cases hout
      · next mid hrun =>
        have hsize : mid.size = dst.size := size_of_moveFrom hrun
        intro u hu
        rcases List.mem_cons.mp hu with rfl | hu
        · exact inBounds_of_moveFrom hrun
        · exact (ih (Option.isSome_of_mem hout) hout u hu).of_size_eq hsize.symm
  · intro h
    obtain ⟨out, hout, -⟩ := exists_runAll h
    exact Option.isSome_of_mem hout

/-- A byte of the result of transfers is the source byte of the last one that writes there. -/
theorem getElem?_of_runAll {ts : List Transfer} {src dst out : ByteArray}
    (h : runAll src ts dst = some out) (j : Nat) : (Bytes.toList out)[j]? =
      (lastSourceOf? ts j).elim (Bytes.toList dst)[j]? fun i => (Bytes.toList src)[i]? := by
  obtain ⟨out', hout, hbytes⟩ := exists_runAll (isSome_runAll_iff.mp (Option.isSome_of_mem h))
  obtain rfl : out' = out := Option.some.inj (hout.symm.trans h)
  exact hbytes j

/-- Transfers that stay within their planes alike and take each byte from one place have the same
result. -/
theorem runAll_eq_of_lastSourceOf?_eq {ts us : List Transfer} {src dst : ByteArray}
    (hbounds : (∀ t ∈ ts, t.InBounds src dst) ↔ ∀ u ∈ us, u.InBounds src dst)
    (hlast : ∀ j, lastSourceOf? ts j = lastSourceOf? us j) :
    runAll src ts dst = runAll src us dst := by
  rw [← isSome_runAll_iff, ← isSome_runAll_iff] at hbounds
  cases hts : runAll src ts dst with
  | none =>
    rw [hts] at hbounds
    exact (Option.not_isSome_iff_eq_none.mp fun hus => nomatch hbounds.mpr hus).symm
  | some a =>
    obtain ⟨b, hus⟩ := Option.isSome_iff_exists.mp (hbounds.mp (Option.isSome_of_mem hts))
    rw [hus]
    refine congrArg some (Bytes.ext (List.ext_getElem? fun j => ?_))
    rw [getElem?_of_runAll hts, getElem?_of_runAll hus, hlast]

/-- Running transfers again on their own result changes nothing. -/
theorem runAll_of_runAll {ts : List Transfer} {src dst out : ByteArray}
    (h : runAll src ts dst = some out) : runAll src ts out = some out := by
  have hbounds := isSome_runAll_iff.mp (Option.isSome_of_mem h)
  obtain ⟨again, hagain, hbytes⟩ := exists_runAll fun t ht =>
    (hbounds t ht).of_size_eq (size_of_runAll h)
  rw [hagain]
  refine congrArg some (Bytes.ext (List.ext_getElem? fun j => ?_))
  rw [hbytes]
  cases hlast : lastSourceOf? ts j with
  | none => rfl
  | some i => rw [getElem?_of_runAll h, hlast]; rfl

/-- Where each part of a list of transfers writes to an offset or not, the last part that does
counts. -/
theorem lastSourceOf?_flatMap {α : Type} {f : α → List Transfer} {l : List α} {p : α → Bool}
    {source : α → Nat} {j : Nat}
    (h : ∀ a ∈ l, lastSourceOf? (f a) j = if p a then some (source a) else none) :
    lastSourceOf? (l.flatMap f) j = (l.reverse.find? p).map source := by
  induction l with
  | nil => rfl
  | cons a l ih =>
    obtain ⟨ha, hl⟩ := List.forall_mem_cons.mp h
    rw [List.flatMap_cons, lastSourceOf?_append, ih hl, ha, List.reverse_cons, List.find?_append,
      Option.map_or]
    congr 1
    cases hp : p a <;> simp [hp]

end Transfer

end FrameEncoder
