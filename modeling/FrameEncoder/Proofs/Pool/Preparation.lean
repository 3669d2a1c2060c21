import FrameEncoder.Pool

/-!
# What a preparation does

Preparing a slot keeps its context, leaves it without one, or opens a new one over a zeroed
scratch picture. Other slots are not touched. A slot with a session always bears a positive size
and a scratch picture for exactly that size; a slot without one has no scratch picture either.
-/

namespace FrameEncoder

/-- The padded form of a 32-bit extent is at most the end of the 32-bit range. -/
theorem paddedExtent_le (n : Int32) : paddedExtent n ≤ 2147483648 := by
  have hn := n.toInt_lt
  unfold paddedExtent alignTo16
  omega

/-- The padded area of a region of 32-bit extents. -/
theorem paddedArea_le (width height : Int32) :
    paddedExtent width * paddedExtent height ≤ 2147483648 * 2147483648 :=
  Nat.mul_le_mul (paddedExtent_le width) (paddedExtent_le height)

/-- The size of a scratch picture is a 64-bit value. -/
theorem scratchBytes_lt (width height : Int32) :
    scratchBytes width height < 18446744073709551616 := by
  have harea := paddedArea_le width height
  unfold scratchBytes
  omega

namespace Slot

/-- A slot has a context if it has a session, and then that session with its scratch picture. -/
theorem context_eq_some_iff {s : Slot} {c : Context} :
    s.context = some c ↔ s.session = some c.session ∧ s.scratch = c.scratch := by
  rw [context, Option.map_eq_some_iff]
  constructor
  · rintro ⟨session, hsession, rfl⟩
    exact ⟨hsession, rfl⟩
  · rintro ⟨hsession, hscratch⟩
    exact ⟨c.session, hsession, congrArg (Context.mk c.session) hscratch⟩

/-- A slot without a session has no context. -/
theorem context_eq_none_iff {s : Slot} : s.context = none ↔ s.session = none :=
  Option.map_eq_none_iff

/-- A slot with a session bears a positive size and the scratch picture of that size. One without
has no scratch picture. -/
structure IsSound (s : Slot) : Prop where
  live : s.isLive = true →
    (s.width > 0 ∧ s.height > 0) ∧ s.scratch.size = scratchBytes s.width s.height
  dead : s.session = none → s.scratch = .empty

/-- A slot that was emptied is sound, whatever its size. -/
theorem isSound_emptied (s : Slot) (width height : Int32) :
    IsSound { s.emptied with width, height } :=
  ⟨nofun, fun _ => rfl⟩

/-- The context of a sound slot belongs to a positive size and has the scratch picture of that
size. -/
theorem IsSound.of_context {s : Slot} (hs : s.IsSound) {c : Context} (hc : s.context = some c) :
    (s.width > 0 ∧ s.height > 0) ∧ c.scratch.size = scratchBytes s.width s.height := by
  obtain ⟨hsession, hscratch⟩ := context_eq_some_iff.mp hc
  rw [← hscratch]
  exact hs.live (Option.isSome_of_eq_some hsession)

/-- A slot that fits a size has a context and bears that size. -/
theorem fits_eq_true_iff {s : Slot} {width height : Int32} :
    s.fits width height = true ↔ s.isLive = true ∧ s.width = width ∧ s.height = height := by
  simp only [fits, Bool.and_eq_true, beq_iff_eq, and_assoc]

end Slot

namespace Pool

/-- The slots of a pool without contexts. -/
theorem get_empty (i : Fin poolCapacity) : empty.get i = Slot.empty :=
  Vector.getElem_replicate _

/-- The slot of a channel after it was replaced. -/
@[simp] theorem slot_setSlot (p : Pool) (channel : UInt32) (s : Slot) :
    (p.setSlot channel s).slot channel = s :=
  Vector.getElem_set_self _

/-- The replaced slot, by its number. -/
theorem get_setSlot_self (p : Pool) (channel : UInt32) (s : Slot) :
    (p.setSlot channel s).get (slotIndex channel) = s :=
  slot_setSlot p channel s

/-- A slot other than the replaced one. -/
theorem get_setSlot_of_ne {p : Pool} {channel : UInt32} {s : Slot} {i : Fin poolCapacity}
    (h : slotIndex channel ≠ i) : (p.setSlot channel s).get i = p.get i :=
  Vector.getElem_set_ne (slotIndex channel).isLt i.isLt (fun hi => h (Fin.ext hi))

/-- Replacing a slot by itself changes nothing. -/
theorem setSlot_slot (p : Pool) (channel : UInt32) : p.setSlot channel (p.slot channel) = p := by
  cases p
  exact congrArg Pool.mk (Vector.set_getElem_self _)

/-- The scratch picture of a live slot after it was replaced. -/
theorem setScratch_eq {p : Pool} {channel : UInt32} {c : Context}
    (h : (p.slot channel).context = some c) (scratch : ByteArray) :
    p.setScratch channel scratch = p.setSlot channel { p.slot channel with scratch } :=
  if_pos (Option.isSome_of_eq_some (Slot.context_eq_some_iff.mp h).1)

/-- Every slot of a pool is sound. -/
def IsSound (p : Pool) : Prop := ∀ i : Fin poolCapacity, (p.get i).IsSound

/-- A pool without contexts is sound. -/
theorem isSound_empty : IsSound empty := by
  intro i
  rw [get_empty]
  exact Slot.isSound_emptied .empty 0 0

/-- Replacing a slot by a sound one keeps a pool sound. -/
theorem IsSound.setSlot {p : Pool} (hp : p.IsSound) (channel : UInt32) {s : Slot}
    (hs : s.IsSound) : (p.setSlot channel s).IsSound := by
  intro i
  by_cases hi : slotIndex channel = i
  · subst hi
    rw [get_setSlot_self]
    exact hs
  · rw [get_setSlot_of_ne hi]
    exact hp i

/-- Replacing a scratch picture by one of its size keeps a pool sound. -/
theorem IsSound.setScratch {p : Pool} (hp : p.IsSound) {channel : UInt32} {c : Context}
    (hc : (p.slot channel).context = some c) {scratch : ByteArray}
    (hsize : scratch.size = c.scratch.size) : (p.setScratch channel scratch).IsSound := by
  rw [setScratch_eq hc]
  have hsession := (Slot.context_eq_some_iff.mp hc).1
  obtain ⟨hpos, hbytes⟩ := (hp (slotIndex channel)).of_context hc
  refine hp.setSlot channel ⟨fun _ => ⟨hpos, hsize.trans hbytes⟩, fun hnone => ?_⟩
  rw [show (p.slot channel).session = none from hnone] at hsession
  cases hsession

variable {P σ : Type} {E : Engine P σ}

/-- Closing a context opens none. -/
@[simp] theorem opened_destroy (h : Host P σ) (s : Slot) : (destroy h s).1.opened = h.opened := by
  unfold destroy
  cases s.session <;> rfl

/-- A destroyed slot bears its old size, but no session and no scratch picture. -/
@[simp] theorem destroy_snd (h : Host P σ) (s : Slot) : (destroy h s).2 = s.emptied := by
  unfold destroy
  cases s.session <;> rfl

/-- An opened session is numbered after all sessions so far. -/
theorem openIn_eq_ok {h host : Host P σ} {width height : Nat} {params : P} {session : SessionId}
    (ho : E.openIn h width height params = (.ok session, host)) :
    session = h.opened + 1 ∧ host.opened = h.opened + 1 := by
  unfold Engine.openIn at ho
  split at ho
  · cases ho
  · obtain ⟨hs, rfl⟩ := Prod.mk.inj ho
    exact ⟨(Except.ok.inj hs).symm, rfl⟩

/-- An opened context is numbered after all sessions so far, and its scratch picture is zero. -/
theorem openContext_eq_ok {h host : Host P σ} {width height : Int32} {params : P} {c : Context}
    (ho : openContext E h width height params = (.ok c, host)) :
    c = ⟨h.opened + 1, Bytes.zeros (scratchBytes width height)⟩ ∧
      host.opened = h.opened + 1 := by
  unfold openContext at ho
  split at ho
  · cases ho
  · next hopen =>
    obtain ⟨rfl, hcount⟩ := openIn_eq_ok hopen
    simp only at ho
    split at ho
    · next halloc =>
      obtain ⟨hc, rfl⟩ := Prod.mk.inj ho
      obtain ⟨-, rfl⟩ := Prod.mk.inj halloc
      exact ⟨(Except.ok.inj hc).symm, hcount⟩
    · cases ho

/-- What preparing a slot for a size comes to. -/
inductive Prepared (E : Engine P σ) (h : Host P σ) (s : Slot) (width height : Int32) (params : P) :
    Except BackendError ContextFlags × Host P σ × Slot → Prop
  /-- The context is of that size already. -/
  | kept (hfits : s.fits width height = true) :
      Prepared E h s width height params (.ok .none, h, s)
  /-- The region is empty, so any context goes. -/
  | emptied (hfits : s.fits width height = false) (hsize : ¬ (width > 0 ∧ height > 0)) :
      Prepared E h s width height params
        (.ok ⟨false, s.isLive⟩, (destroy h s).1, { s.emptied with width, height })
  /-- Any context goes, and there is none to replace it. -/
  | refused (hfits : s.fits width height = false) (hsize : width > 0 ∧ height > 0)
      {e : BackendError} {host : Host P σ}
      (hopen : openContext E (destroy h s).1 width height params = (.error e, host)) :
      Prepared E h s width height params (.error e, host, s.emptied)
  /-- Any context is replaced by a new one. -/
  | opened (hfits : s.fits width height = false) (hsize : width > 0 ∧ height > 0)
      {c : Context} {host : Host P σ}
      (hopen : openContext E (destroy h s).1 width height params = (.ok c, host)) :
      Prepared E h s width height params
        (.ok ⟨true, s.isLive⟩, host, ⟨some c.session, c.scratch, width, height⟩)

/-- Preparing a slot comes to one of these. -/
theorem prepared_prepareSlot (E : Engine P σ) (h : Host P σ) (s : Slot) (width height : Int32)
    (params : P) :
    Prepared E h s width height params (prepareSlot E h s width height params) := by
  unfold prepareSlot
  split
  · next hfits => exact .kept hfits
  · next hfits =>
    rw [Bool.not_eq_true] at hfits
    simp only
    split
    · next hsize =>
      split
      · next hopen => exact .opened hfits hsize hopen
      · next hopen =>
        rw [destroy_snd]
        exact .refused hfits hsize hopen
    · next hsize =>
      rw [destroy_snd]
      exact .emptied hfits hsize

/-- Preparing a slot keeps it sound. -/
theorem Prepared.isSound {h : Host P σ} {s : Slot} {width height : Int32} {params : P}
    {out : Except BackendError ContextFlags × Host P σ × Slot}
    (hp : Prepared E h s width height params out) (hs : s.IsSound) : out.2.2.IsSound := by
  cases hp with
  | kept hfits => exact hs
  | emptied hfits hsize => exact s.isSound_emptied width height
  | refused hfits hsize hopen => exact s.isSound_emptied s.width s.height
  | opened hfits hsize hopen =>
    obtain ⟨rfl, -⟩ := openContext_eq_ok hopen
    exact ⟨fun _ => ⟨hsize, Bytes.size_zeros _⟩, nofun⟩

/-- A prepared slot bears the size it was prepared for. -/
theorem Prepared.size_eq {h : Host P σ} {s : Slot} {width height : Int32} {params : P}
    {flags : ContextFlags} {host : Host P σ} {t : Slot}
    (hp : Prepared E h s width height params (.ok flags, host, t)) :
    t.width = width ∧ t.height = height := by
  cases hp with
  | kept hfits => exact (Slot.fits_eq_true_iff.mp hfits).2
  | emptied hfits hsize => exact ⟨rfl, rfl⟩
  | opened hfits hsize hopen => exact ⟨rfl, rfl⟩

/-- A slot that fits its size already is not touched. -/
theorem Prepared.slot_eq_of_fits {h : Host P σ} {s : Slot} {width height : Int32} {params : P}
    {out : Except BackendError ContextFlags × Host P σ × Slot}
    (hp : Prepared E h s width height params out) (hfits : s.fits width height = true) :
    out.2.2 = s := by
  cases hp with
  | kept _ => rfl
  | emptied hnot _ => exact absurd hfits (Bool.eq_false_iff.mp hnot)
  | refused hnot _ _ => exact absurd hfits (Bool.eq_false_iff.mp hnot)
  | opened hnot _ _ => exact absurd hfits (Bool.eq_false_iff.mp hnot)

/-- A failed preparation leaves the slot without a context. -/
theorem Prepared.context_eq_none {h : Host P σ} {s : Slot} {width height : Int32} {params : P}
    {e : BackendError} {host : Host P σ} {t : Slot}
    (hp : Prepared E h s width height params (.error e, host, t)) : t.context = none := by
  cases hp with
  | refused hfits hsize hopen => rfl

/-- Destroying every context empties every slot. -/
theorem get_clear (h : Host P σ) (p : Pool) (i : Fin poolCapacity) :
    (clear h p).2.get i = (p.get i).emptied :=
  Vector.getElem_map _ _

/-- Destroying every context leaves a sound pool. -/
theorem isSound_clear (h : Host P σ) (p : Pool) : (clear h p).2.IsSound := by
  intro i
  rw [get_clear]
  exact (p.get i).isSound_emptied (p.get i).width (p.get i).height

end Pool

end FrameEncoder
