import FrameEncoder.Proofs.Backend.SessionLife

/-!
# What a preparation reports

Between uses of the slots, whatever the library answers and whatever memory there is, a slot has
either no context or one for a positive size with the scratch picture of that size, whose length is
computed in 64-bit words without a wrap. A preparation reports a destruction exactly if a context of
another size went, and a creation exactly if one came; a context of the right size is kept and
nothing is asked. A failed preparation leaves the slot without a context and with its old size, but
that size is not taken for a context: whatever the next size is, a session is asked for again.
-/

namespace FrameEncoder

/-- Clearing the four low bits of a word rounds down to a multiple of sixteen. -/
theorem toNat_clearLow (n : UInt64) : (n &&& ~~~15).toNat = n.toNat / 16 * 16 := by
  have hmask : ∀ i, (15#64).getLsbD i = decide (i < 4) := by
    intro i
    rw [BitVec.getLsbD_ofNat, show 15 = 2 ^ 4 - 1 from rfl, Nat.testBit_two_pow_sub_one]
    by_cases hi : i < 4
    · simp [hi, Nat.lt_trans hi]
    · simp [hi]
  have hbits : n.toBitVec &&& ~~~15#64 = (n.toBitVec >>> 4) <<< 4 := by
    apply BitVec.eq_of_getLsbD_eq
    intro i hi
    rw [BitVec.getLsbD_and, BitVec.getLsbD_not, hmask, BitVec.getLsbD_shiftLeft,
      BitVec.getLsbD_ushiftRight]
    by_cases hlow : i < 4
    · simp [hlow]
    · rw [show 4 + (i - 4) = i by omega]
      simp [hi, hlow]
  have hlt := n.toNat_lt
  calc (n &&& ~~~15).toNat = (n.toBitVec &&& ~~~15#64).toNat := rfl
    _ = n.toNat / 16 * 16 % 2 ^ 64 := by
      rw [hbits, BitVec.toNat_shiftLeft, BitVec.toNat_ushiftRight, Nat.shiftLeft_eq,
        Nat.shiftRight_eq_div_pow]
      rfl
    _ = n.toNat / 16 * 16 := Nat.mod_eq_of_lt (by omega)

/-- The padded form of a region extent, computed in 64-bit words. -/
def paddedWord (n : Int32) : UInt64 := (UInt64.ofNat n.toInt.toNat + 15) &&& ~~~15

/-- Padding an extent does not wrap. -/
theorem toNat_paddedWord (n : Int32) : (paddedWord n).toNat = paddedExtent n := by
  have hn := n.toInt_lt
  have hextent : (UInt64.ofNat n.toInt.toNat).toNat = n.toInt.toNat := by
    rw [UInt64.toNat_ofNat']
    exact Nat.mod_eq_of_lt (by omega)
  have hsum : (UInt64.ofNat n.toInt.toNat + 15).toNat = n.toInt.toNat + 15 := by
    rw [UInt64.toNat_add, hextent]
    exact Nat.mod_eq_of_lt (by simp only [UInt64.reduceToNat]; omega)
  rw [paddedWord, toNat_clearLow, hsum, paddedExtent, alignTo16]

/-- Neither does the size of a scratch picture, nor the product on the way to it. -/
theorem toNat_scratchWord (width height : Int32) :
    (paddedWord width * paddedWord height).toNat = paddedExtent width * paddedExtent height ∧
      (paddedWord width * paddedWord height * 2).toNat = scratchBytes width height := by
  have harea := paddedArea_le width height
  have hproduct : (paddedWord width * paddedWord height).toNat =
      paddedExtent width * paddedExtent height := by
    rw [UInt64.toNat_mul, toNat_paddedWord, toNat_paddedWord]
    exact Nat.mod_eq_of_lt (by omega)
  refine ⟨hproduct, ?_⟩
  rw [UInt64.toNat_mul, hproduct, scratchBytes]
  exact Nat.mod_eq_of_lt (by simp only [UInt64.reduceToNat]; omega)

namespace Slot

/-- A slot without a session has no scratch picture; one with a session bears a positive size and
has the scratch picture of that size. -/
def IsWhole (s : Slot) : Prop :=
  s.isLive = false ∧ s.scratchLength = 0 ∨
    s.isLive = true ∧ (0 < s.width.toInt ∧ 0 < s.height.toInt) ∧
      s.scratchLength = 2 * paddedExtent s.width * paddedExtent s.height

/-- A slot without a context is not live. -/
theorem isLive_eq_false_of_context {s : Slot} (h : s.context = none) : s.isLive = false :=
  Option.isSome_eq_false_iff.mpr (Option.isNone_iff_eq_none.mpr (context_eq_none_iff.mp h))

/-- A positive size is one of positive integers. -/
theorem size_pos_iff (width height : Int32) :
    (width > 0 ∧ height > 0) ↔ 0 < width.toInt ∧ 0 < height.toInt := by
  have hzero : (0 : Int32).toInt = 0 := rfl
  rw [gt_iff_lt, gt_iff_lt, Int32.lt_iff_toInt_lt, Int32.lt_iff_toInt_lt, hzero]

/-- A sound slot is whole. -/
theorem IsSound.isWhole {s : Slot} (h : s.IsSound) : s.IsWhole := by
  cases hlive : s.isLive with
  | false =>
    have hscratch : s.scratch = .empty := h.dead (Option.isNone_iff_eq_none.mp
      (Option.isSome_eq_false_iff.mp hlive))
    exact .inl ⟨hlive, congrArg ByteArray.size hscratch⟩
  | true =>
    obtain ⟨hpos, hsize⟩ := h.live hlive
    refine .inr ⟨hlive, (size_pos_iff _ _).mp hpos, ?_⟩
    rw [scratchLength, hsize, scratchBytes, Nat.mul_comm, Nat.mul_assoc]

end Slot

variable {P σ : Type}

namespace Pool

variable {E : Engine P σ} {h host : Host P σ} {p : Pool} {s t : Slot} {width height : Int32}
  {params : P} {flags : ContextFlags} {e : BackendError}

/-- A preparation that succeeds tells of a destruction exactly if a context of another size went. -/
theorem Prepared.destroyed_iff
    (hp : Prepared E h s width height params (.ok flags, host, t)) :
    flags.destroyed = true ↔ s.isLive = true ∧ ¬ (s.width = width ∧ s.height = height) := by
  have hgone : s.fits width height = false → (s.isLive = true ↔
      s.isLive = true ∧ ¬ (s.width = width ∧ s.height = height)) := fun hfits =>
    ⟨fun hlive => ⟨hlive, fun hsize => Bool.eq_false_iff.mp hfits
      (Slot.fits_eq_true_iff.mpr ⟨hlive, hsize⟩)⟩, And.left⟩
  cases hp with
  | kept hfits =>
    have hsize := (Slot.fits_eq_true_iff.mp hfits).2
    exact ⟨nofun, fun hother => absurd hsize hother.2⟩
  | emptied hfits hsize => exact hgone hfits
  | opened hfits hsize hopen => exact hgone hfits

/-- A preparation that succeeds tells of a creation exactly if the size is positive and there was no
context for it. -/
theorem Prepared.created_iff
    (hp : Prepared E h s width height params (.ok flags, host, t)) :
    flags.created = true ↔ (0 < width.toInt ∧ 0 < height.toInt) ∧
      ¬ (s.isLive = true ∧ s.width = width ∧ s.height = height) := by
  rw [← Slot.size_pos_iff, ← Slot.fits_eq_true_iff]
  cases hp with
  | kept hfits => exact ⟨nofun, fun hother => absurd hfits hother.2⟩
  | emptied hfits hsize => exact ⟨nofun, fun hother => absurd hother.1 hsize⟩
  | opened hfits hsize hopen =>
    exact ⟨fun _ => ⟨hsize, Bool.eq_false_iff.mp hfits⟩, fun _ => rfl⟩

/-- A preparation that succeeds leaves a context exactly if the size is positive. -/
theorem Prepared.isLive_iff (hs : s.IsSound)
    (hp : Prepared E h s width height params (.ok flags, host, t)) :
    t.isLive = true ↔ 0 < width.toInt ∧ 0 < height.toInt := by
  rw [← Slot.size_pos_iff]
  cases hp with
  | kept hfits =>
    obtain ⟨hlive, rfl, rfl⟩ := Slot.fits_eq_true_iff.mp hfits
    exact ⟨fun _ => (hs.live hlive).1, fun _ => hlive⟩
  | emptied hfits hsize => exact ⟨nofun, fun hpos => absurd hpos hsize⟩
  | opened hfits hsize hopen => exact ⟨fun _ => hsize, fun _ => rfl⟩

/-- A preparation that fails leaves the old size behind, but no session and no scratch picture. -/
theorem Prepared.eq_of_error
    (hp : Prepared E h s width height params (.error e, host, t)) : t = s.emptied := by
  cases hp with
  | refused hfits hsize hopen => rfl

/-- Opening a context asks for a session of the padded size first. -/
theorem exists_opened_of_openContext {result : Except BackendError Context}
    (ho : openContext E h width height params = (result, host)) :
    ∃ session rest, host.events =
      h.events ++ .opened session (paddedExtent width) (paddedExtent height) params :: rest := by
  unfold openContext Engine.openIn at ho
  split at ho
  · next hopen =>
    split at hopen
    · obtain ⟨-, rfl⟩ := Prod.mk.inj hopen
      obtain ⟨-, rfl⟩ := Prod.mk.inj ho
      exact ⟨none, [], rfl⟩
    · cases hopen
  · next hopen =>
    split at hopen
    · cases hopen
    · obtain ⟨-, rfl⟩ := Prod.mk.inj hopen
      simp only at ho
      split at ho
      · next halloc =>
        obtain ⟨-, rfl⟩ := Prod.mk.inj halloc
        obtain ⟨-, rfl⟩ := Prod.mk.inj ho
        exact ⟨_, [], rfl⟩
      · next halloc =>
        obtain ⟨-, rfl⟩ := Prod.mk.inj halloc
        obtain ⟨-, rfl⟩ := Prod.mk.inj ho
        exact ⟨_, [.closed _], List.append_assoc ..⟩

/-- Preparing a slot without a context for a positive size asks for a session of the padded size. -/
theorem Prepared.exists_opened {result : Except BackendError ContextFlags}
    (hp : Prepared E h s width height params (result, host, t)) (hs : s.context = none)
    (hsize : 0 < width.toInt ∧ 0 < height.toInt) :
    ∃ session rest, host.events =
      h.events ++ .opened session (paddedExtent width) (paddedExtent height) params :: rest := by
  have hdestroy : (destroy h s).1 = h := by
    unfold destroy
    rw [Slot.context_eq_none_iff.mp hs]
  cases hp with
  | kept hfits =>
    have hlive := (Slot.fits_eq_true_iff.mp hfits).1
    rw [Slot.isLive_eq_false_of_context hs] at hlive
    cases hlive
  | emptied hfits hempty => exact absurd ((Slot.size_pos_iff _ _).mpr hsize) hempty
  | refused hfits _ hopen =>
    rw [hdestroy] at hopen
    exact exists_opened_of_openContext hopen
  | opened hfits _ hopen =>
    rw [hdestroy] at hopen
    exact exists_opened_of_openContext hopen

/-- Preparing a pool prepares the slot of the channel. -/
theorem prepared_prepare (E : Engine P σ) (h : Host P σ) (p : Pool) (channel : UInt32)
    (width height : Int32) (params : P) :
    let out := prepare E h p channel width height params
    Prepared E h (p.slot channel) width height params (out.1, out.2.1, out.2.2.slot channel) ∧
      out.2.2 = p.setSlot channel (out.2.2.slot channel) := by
  have hprepared := prepared_prepareSlot E h (p.slot channel) width height params
  simp only [prepare, slot_setSlot]
  exact ⟨hprepared, trivial⟩

/-- What a preparation of the slot of a channel does and reports. -/
structure Reports (E : Engine P σ) (h : Host P σ) (p : Pool) (channel : UInt32)
    (width height : Int32) (params : P) : Prop where
  ready : ∀ flags host q, prepare E h p channel width height params = (.ok flags, host, q) →
    let s := p.slot channel
    let t := q.slot channel
    (t.width = width ∧ t.height = height) ∧
      (t.isLive = true ↔ 0 < width.toInt ∧ 0 < height.toInt) ∧
      (flags.destroyed = true ↔ s.isLive = true ∧ ¬ (s.width = width ∧ s.height = height)) ∧
      (flags.created = true ↔ (0 < width.toInt ∧ 0 < height.toInt) ∧
        ¬ (s.isLive = true ∧ s.width = width ∧ s.height = height))
  /-- For a context of the right size nothing is asked, and no slot changes. -/
  kept : (p.slot channel).isLive = true →
    (p.slot channel).width = width ∧ (p.slot channel).height = height →
    prepare E h p channel width height params = (.ok .none, h, p)
  failed : ∀ e host q, prepare E h p channel width height params = (.error e, host, q) →
    let s := p.slot channel
    let t := q.slot channel
    (t.isLive = false ∧ t.scratchLength = 0) ∧ (t.width = s.width ∧ t.height = s.height)
  /-- After a failure, a session is asked for again for every positive size. -/
  retried : ∀ e host q, prepare E h p channel width height params = (.error e, host, q) →
    ∀ again width' height' params', slotIndex again = slotIndex channel →
      0 < width'.toInt ∧ 0 < height'.toInt →
      let out := prepare E host q again width' height' params'
      (∃ session rest, out.2.1.events = host.events ++
        .opened session (paddedExtent width') (paddedExtent height') params' :: rest) ∧
      ∀ flags, out.1 = .ok flags → flags = ⟨true, false⟩
  others : ∀ i, slotIndex channel ≠ i →
    (prepare E h p channel width height params).2.2.get i = p.get i

/-- A preparation of a sound pool does and reports just that. -/
theorem reports_of_isSound (E : Engine P σ) (h : Host P σ) (hp : p.IsSound) (channel : UInt32)
    (width height : Int32) (params : P) : Reports E h p channel width height params := by
  obtain ⟨hprepared, hset⟩ := prepared_prepare E h p channel width height params
  constructor
  · intro flags host q heq
    rw [heq] at hprepared
    exact ⟨hprepared.size_eq, hprepared.isLive_iff (hp (slotIndex channel)),
      hprepared.destroyed_iff, hprepared.created_iff⟩
  · intro hlive hsize
    have hfits : (p.slot channel).fits width height = true :=
      Slot.fits_eq_true_iff.mpr ⟨hlive, hsize⟩
    have hkept : prepareSlot E h (p.slot channel) width height params =
        (.ok .none, h, p.slot channel) := if_pos hfits
    simp only [prepare, hkept, setSlot_slot]
  · intro e host q heq
    rw [heq] at hprepared
    rw [show q.slot channel = _ from hprepared.eq_of_error]
    exact ⟨⟨rfl, rfl⟩, rfl, rfl⟩
  · intro e host q heq again width' height' params' hsame hpos
    rw [heq] at hprepared
    have hempty : (q.slot again).context = none := by
      rw [slot, hsame]
      exact hprepared.context_eq_none
    have hdead : ¬ (q.slot again).isLive = true :=
      Bool.eq_false_iff.mp (Slot.isLive_eq_false_of_context hempty)
    obtain ⟨hagain, -⟩ := prepared_prepare E host q again width' height' params'
    refine ⟨hagain.exists_opened hempty hpos, fun flags hflags => ?_⟩
    rw [hflags] at hagain
    have hcreated : flags.created = true :=
      hagain.created_iff.mpr ⟨hpos, fun hlive => hdead hlive.1⟩
    have hdestroyed : flags.destroyed = false :=
      eq_false_of_ne_true fun hset => hdead (hagain.destroyed_iff.mp hset).1
    calc flags = ⟨flags.created, flags.destroyed⟩ := rfl
      _ = ⟨true, false⟩ := by rw [hcreated, hdestroyed]
  · intro i hi
    rw [hset]
    exact get_setSlot_of_ne hi

end Pool

namespace H264Backend

variable {B : H264Backend P σ}

/-- Every use of the slots keeps the pool sound. -/
theorem isSound_perform {s : H264State P σ} (hs : s.pool.IsSound) (call : SlotCall P) :
    (B.perform s call).2.pool.IsSound := by
  cases call with
  | prepare channel width height params =>
    obtain ⟨hprepared, hset⟩ :=
      Pool.prepared_prepare B.engine s.host s.pool channel width height params
    change (Pool.prepare B.engine s.host s.pool channel width height params).2.2.IsSound
    rw [hset]
    exact hs.setSlot channel (hprepared.isSound (hs (slotIndex channel)))
  | encode r dest => exact isSound_encode hs r dest
  | clear => exact Pool.isSound_clear s.host s.pool

/-- The pool stays sound along any uses of the slots. -/
theorem isSound_performAll {s : H264State P σ} (hs : s.pool.IsSound) (calls : List (SlotCall P)) :
    (B.performAll s calls).pool.IsSound := by
  induction calls generalizing s with
  | nil => exact hs
  | cons call calls ih => exact ih (isSound_perform hs call)

/-- After any preparations, encode calls and clearings, every slot is whole, the size of a scratch
picture is computed without a wrap, and the next preparation does and reports what it should. -/
theorem reports_performAll (B : H264Backend P σ) (state : σ) (calls : List (SlotCall P)) :
    let s := B.performAll (fresh state) calls
    (∀ i, (s.pool.get i).IsWhole) ∧
    (∀ width height : Int32, (paddedWord width).toNat = paddedExtent width ∧
      (paddedWord width * paddedWord height).toNat = paddedExtent width * paddedExtent height ∧
      (paddedWord width * paddedWord height * 2).toNat = scratchBytes width height) ∧
    ∀ channel width height params,
      Pool.Reports B.engine s.host s.pool channel width height params := by
  intro s
  have hsound : s.pool.IsSound := isSound_performAll Pool.isSound_empty calls
  refine ⟨fun i => (hsound i).isWhole, fun width height => ?_, fun channel width height params =>
    Pool.reports_of_isSound B.engine s.host hsound channel width height params⟩
  exact ⟨toNat_paddedWord width, toNat_scratchWord width height⟩

end H264Backend

end FrameEncoder
