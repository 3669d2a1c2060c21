import FrameEncoder.Proofs.Backend.Bodies

/-!
# Storing coded units

The two encoders put units into a destination by different rules: one lays them down until one
finds no room, the other measures them first. What is laid is always the longest run of first
units that has room, with the old bytes after it, so the first rule stores all of the output just
if all of it fits. For output of at least one byte both rules come to the same.
-/

namespace FrameEncoder

namespace Bytes

/-- The bytes of several buffers, one buffer after the other, are as many as the buffers have. -/
theorem length_flatMap_toList (us : List ByteArray) :
    (us.flatMap toList).length = totalSize us := by
  induction us with
  | nil => rfl
  | cons u us ih =>
    rw [List.flatMap_cons, List.length_append, ih, length_toList, totalSize]

/-- Up to the end of what is laid over a buffer, its bytes are the old ones and what is laid. -/
theorem take_overlay {b bytes : ByteArray} {offset : Nat} (h : offset + bytes.size ≤ b.size) :
    (toList (overlay b offset bytes)).take (offset + bytes.size) =
      (toList b).take offset ++ toList bytes := by
  rw [toList_overlay]
  refine List.take_left' ?_
  rw [List.length_append, List.length_take, length_toList, length_toList]
  omega

/-- From the end of what is laid over a buffer on, its bytes are the old ones. -/
theorem drop_overlay {b bytes : ByteArray} {offset : Nat} (h : offset + bytes.size ≤ b.size) :
    (toList (overlay b offset bytes)).drop (offset + bytes.size) =
      (toList b).drop (offset + bytes.size) := by
  rw [toList_overlay]
  refine List.drop_left' ?_
  rw [List.length_append, List.length_take, length_toList, length_toList]
  omega

end Bytes

/-- The longest run of first units that has room in so many bytes. -/
structure IsLongestFit (us fitted : List ByteArray) (capacity : Nat) : Prop where
  starts : fitted <+: us
  /-- The first units of a list have room just if these are among them. -/
  fits_iff : ∀ other, other <+: us → (Bytes.totalSize other ≤ capacity ↔ other <+: fitted)

namespace IsLongestFit

/-- Of no units, none is the longest run. -/
theorem nil (capacity : Nat) : IsLongestFit [] [] capacity := by
  refine ⟨List.prefix_rfl, fun other hother => ?_⟩
  rw [List.prefix_nil] at hother
  rw [hother]
  exact ⟨fun _ => List.prefix_rfl, fun _ => Nat.zero_le _⟩

/-- A first unit that has room is followed by the longest run in the room that it leaves. -/
theorem cons {u : ByteArray} {us fitted : List ByteArray} {capacity : Nat}
    (hu : u.size ≤ capacity) (h : IsLongestFit us fitted (capacity - u.size)) :
    IsLongestFit (u :: us) (u :: fitted) capacity := by
  refine ⟨List.prefix_cons_inj u |>.mpr h.starts, fun other hother => ?_⟩
  cases other with
  | nil => exact ⟨fun _ => List.nil_prefix, fun _ => Nat.zero_le _⟩
  | cons v other =>
    obtain ⟨rfl, hrest⟩ := List.cons_prefix_cons.mp hother
    rw [List.prefix_cons_inj, ← h.fits_iff other hrest, Bytes.totalSize]
    omega

/-- If the first unit has no room, nothing fits. -/
theorem nil_of_lt {u : ByteArray} {us : List ByteArray} {capacity : Nat}
    (hu : capacity < u.size) : IsLongestFit (u :: us) [] capacity := by
  refine ⟨List.nil_prefix, fun other hother => ?_⟩
  cases other with
  | nil => exact ⟨fun _ => List.prefix_rfl, fun _ => Nat.zero_le _⟩
  | cons v other =>
    obtain ⟨rfl, -⟩ := List.cons_prefix_cons.mp hother
    constructor
    · intro hfits
      rw [Bytes.totalSize] at hfits
      omega
    · intro hnil
      exact absurd (List.prefix_nil.mp hnil) (List.cons_ne_nil _ _)

/-- If all units have room, all of them fit. -/
theorem eq_of_le {us fitted : List ByteArray} {capacity : Nat}
    (h : IsLongestFit us fitted capacity) (hle : Bytes.totalSize us ≤ capacity) :
    fitted = us := by
  have hall : us <+: fitted := (h.fits_iff us List.prefix_rfl).mp hle
  exact h.starts.eq_of_length_le hall.length_le

end IsLongestFit

/-- Units are laid from the first free byte on, the longest run of them that has room there, and
every other byte is kept. -/
theorem exists_laid (us : List ByteArray) {written : Nat} {dest : ByteArray}
    (h : written ≤ dest.size) :
    ∃ fitted, IsLongestFit us fitted (dest.size - written) ∧
      (layUnits us written dest).written = written + Bytes.totalSize fitted ∧
      Bytes.toList (layUnits us written dest).dest =
        (Bytes.toList dest).take written ++ fitted.flatMap Bytes.toList ++
          (Bytes.toList dest).drop (written + Bytes.totalSize fitted) := by
  induction us generalizing written dest with
  | nil =>
    refine ⟨[], .nil _, rfl, ?_⟩
    rw [List.flatMap_nil, List.append_nil]
    exact (List.take_append_drop written _).symm
  | cons u us ih =>
    by_cases hu : written + u.size ≤ dest.size
    · have hsize : (Bytes.overlay dest written u).size = dest.size := Bytes.size_overlay _ _ _ hu
      have hlaid : layUnits (u :: us) written dest =
          layUnits us (written + u.size) (Bytes.overlay dest written u) := by
        rw [layUnits, if_pos hu]
      obtain ⟨fitted, hfitted, hwritten, hbytes⟩ := ih (hsize.symm ▸ hu)
      rw [hsize, ← Nat.sub_sub] at hfitted
      refine ⟨u :: fitted, .cons (by omega) hfitted, ?_, ?_⟩
      · rw [hlaid, hwritten, Bytes.totalSize, Nat.add_assoc]
      · have hrest : (Bytes.toList (Bytes.overlay dest written u)).drop
              (written + u.size + Bytes.totalSize fitted) =
            (Bytes.toList dest).drop (written + Bytes.totalSize (u :: fitted)) := by
          rw [← List.drop_drop, Bytes.drop_overlay hu, List.drop_drop, Bytes.totalSize,
            Nat.add_assoc]
        rw [hlaid, hbytes, Bytes.take_overlay hu, hrest, List.flatMap_cons, List.append_assoc _
          (Bytes.toList u)]
    · have hlaid : layUnits (u :: us) written dest = ⟨dest, written, false⟩ := by
        rw [layUnits, if_neg hu]
      refine ⟨[], .nil_of_lt (by omega), by rw [hlaid]; rfl, ?_⟩
      rw [hlaid, List.flatMap_nil, List.append_nil]
      exact (List.take_append_drop written _).symm

/-- The bytes of a buffer that units were laid over, from its first byte on. -/
def laidOver (us : List ByteArray) (dest : ByteArray) : List UInt8 :=
  us.flatMap Bytes.toList ++ (Bytes.toList dest).drop (us.flatMap Bytes.toList).length

/-- Laid from the first byte on, as many units as have room lie over a destination. -/
theorem exists_laidOver (us : List ByteArray) (dest : ByteArray) :
    ∃ fitted, IsLongestFit us fitted dest.size ∧
      (layUnits us 0 dest).written = Bytes.totalSize fitted ∧
      Bytes.toList (layUnits us 0 dest).dest = laidOver fitted dest := by
  obtain ⟨fitted, hfitted, hwritten, hbytes⟩ := exists_laid us (Nat.zero_le dest.size)
  rw [Nat.zero_add] at hwritten hbytes
  refine ⟨fitted, hfitted, hwritten, ?_⟩
  rw [hbytes, laidOver, Bytes.length_flatMap_toList, List.take_zero, List.nil_append]

/-- Units that have room are all laid. -/
theorem layUnits_of_le {us : List ByteArray} {dest : ByteArray}
    (h : Bytes.totalSize us ≤ dest.size) :
    (layUnits us 0 dest).written = Bytes.totalSize us ∧
      Bytes.toList (layUnits us 0 dest).dest = laidOver us dest := by
  obtain ⟨fitted, hfitted, hwritten, hbytes⟩ := exists_laidOver us dest
  rw [hfitted.eq_of_le h] at hwritten hbytes
  exact ⟨hwritten, hbytes⟩

namespace H264Backend

/-- Unit by unit, output is stored if all of it has room, and what has room is laid anyway. -/
theorem store_openH264 (layers : List Layer) (dest : ByteArray) :
    let output := CodedOutput.coded layers
    store .openH264 layers dest =
      (if output.length ≤ dest.size then .ok output.length
        else .error (.overflow output.length dest.size), (layUnits output.units 0 dest).dest) := by
  intro output
  have hcomplete := complete_layUnits_zero_iff output dest
  unfold store
  by_cases hfits : output.length ≤ dest.size
  · have hwritten : (layUnits output.units 0 dest).written = output.length :=
      (layUnits_of_le hfits).1
    simp only [output, if_pos (hcomplete.mpr hfits), if_pos hfits] at hwritten ⊢
    rw [hwritten]
  · simp only [output, if_neg (mt hcomplete.mp hfits), if_neg hfits]

/-- All or nothing, output is stored if there is some and all of it has room. -/
theorem store_x264 (layers : List Layer) (dest : ByteArray) :
    let output := CodedOutput.coded layers
    store .x264 layers dest =
      if output.length = 0 then (.error (.encodeFailed .emptyPayload), dest)
      else if output.length ≤ dest.size then
        (.ok output.length, (layUnits output.units 0 dest).dest)
      else (.error (.overflow output.length dest.size), dest) := by
  intro output
  unfold store
  by_cases hnone : output.length = 0
  · simp only [output, if_pos hnone]
  · by_cases hfits : output.length ≤ dest.size
    · have hwritten : (layUnits output.units 0 dest).written = output.length :=
        (layUnits_of_le hfits).1
      simp only [output, if_neg hnone, if_neg (Nat.not_lt.mpr hfits), if_pos hfits] at hwritten ⊢
      rw [hwritten]
    · simp only [output, if_neg hnone, if_pos (Nat.lt_of_not_le hfits), if_neg hfits]

/-- What an encoder reports of output of at least one byte, whatever its rule. -/
theorem store_fst (encoder : H264Encoder) {layers : List Layer} (dest : ByteArray)
    (hpos : 0 < (CodedOutput.coded layers).length) :
    (store encoder layers dest).1 =
      if (CodedOutput.coded layers).length ≤ dest.size then
        .ok (CodedOutput.coded layers).length
      else .error (.overflow (CodedOutput.coded layers).length dest.size) := by
  cases encoder with
  | openH264 => rw [store_openH264]
  | x264 =>
    rw [store_x264, if_neg (Nat.pos_iff_ne_zero.mp hpos)]
    split <;> rfl

/-- What is reported as stored is all of the output, and it lies over the destination. -/
theorem eq_laidOver_of_store {encoder : H264Encoder} {layers : List Layer} {dest : ByteArray}
    {n : Nat} (hstore : (store encoder layers dest).1 = .ok n) :
    n = (CodedOutput.coded layers).length ∧
      Bytes.toList (store encoder layers dest).2 =
        laidOver (CodedOutput.coded layers).units dest := by
  cases encoder with
  | openH264 =>
    rw [store_openH264] at hstore ⊢
    split at hstore
    · next hfits => exact ⟨(Except.ok.inj hstore).symm, (layUnits_of_le hfits).2⟩
    · cases hstore
  | x264 =>
    rw [store_x264] at hstore ⊢
    split at hstore
    · cases hstore
    · next hsome =>
      split at hstore
      · next hfits =>
        rw [if_neg hsome, if_pos hfits]
        exact ⟨(Except.ok.inj hstore).symm, (layUnits_of_le hfits).2⟩
      · cases hstore

/-- What an encoder stores are the units of its output in order, whatever its rule. -/
theorem take_store_snd {encoder : H264Encoder} {layers : List Layer} {dest : ByteArray} {n : Nat}
    (hstore : (store encoder layers dest).1 = .ok n) :
    (Bytes.toList (store encoder layers dest).2).take n =
      (CodedOutput.coded layers).units.flatMap Bytes.toList := by
  obtain ⟨hn, hbytes⟩ := eq_laidOver_of_store hstore
  rw [hbytes, laidOver]
  refine List.take_left' ?_
  rw [hn, Bytes.length_flatMap_toList]
  rfl

end H264Backend

end FrameEncoder
