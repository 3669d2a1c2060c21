import FrameEncoder.Proofs.Backend.Recording

/-!
# Damage is never lost inside a context

The scratch picture of a slot is what the damage of all requests since its last opening makes of
a zeroed picture, in call order, whatever became of those requests after their damage was copied.
A session is handed exactly that picture. A call touches no slot but its own, and not even that
if its request is not valid or brings no pixels for the size the slot has already.
-/

namespace FrameEncoder

/-- One encode call. -/
structure EncodeCall where
  request : EncodeRequest
  dest : ByteArray

namespace EncodeRequest

/-- Whether a request has pixels an encoder can take: luma and interleaved chroma that fill its
tile. -/
def BearsDamage (r : EncodeRequest) : Prop :=
  r.data.size ≠ 0 ∧ r.format = .nv12 ∧
    r.tileWidth * r.tileHeight + r.tileWidth * ((r.tileHeight + 1) / 2) ≤ r.data.size

instance decidableBearsDamage (r : EncodeRequest) : Decidable r.BearsDamage :=
  inferInstanceAs (Decidable (_ ∧ _ ∧ _))

/-- Just the valid requests with pixels have pixels an encoder can take. -/
theorem bearsDamage_iff (r : EncodeRequest) :
    r.BearsDamage ↔ r.validate = .ok () ∧ r.data.size ≠ 0 := by
  rw [validate_eq_ok_iff]
  constructor
  · rintro ⟨hdata, htile⟩
    exact ⟨.inr htile, hdata⟩
  · rintro ⟨hvalid, hdata⟩
    exact ⟨hdata, hvalid.resolve_left hdata⟩

end EncodeRequest

namespace H264Backend

variable {P σ : Type} (B : H264Backend P σ)

/-- The state after encode calls. -/
def after (s : H264State P σ) : List EncodeCall → H264State P σ
  | [] => s
  | c :: cs => after (B.encode s c.request c.dest).2.2 cs

/-- The requests whose damage a slot has been given since it was last opened, after a call that
led from one state to another. A call that opens a session starts anew. -/
def logDamage (i : Fin poolCapacity) (log : List EncodeRequest) (s t : H264State P σ)
    (r : EncodeRequest) : List EncodeRequest :=
  if r.channelId.toNat % 16 = i then
    (if t.host.opened = s.host.opened then log else []) ++ if r.BearsDamage then [r] else []
  else log

/-- The requests whose damage a slot has been given since it was last opened, after encode
calls. -/
def damage (i : Fin poolCapacity) (s : H264State P σ) (log : List EncodeRequest) :
    List EncodeCall → List EncodeRequest
  | [] => log
  | c :: cs =>
    let t := (B.encode s c.request c.dest).2.2
    damage i t (logDamage i log s t c.request) cs

/-- The damage of a request copied into the picture of its region. -/
def copyDamage (encoder : H264Encoder) (picture : ByteArray) (r : EncodeRequest) :
    Option ByteArray :=
  CopyGeometry.copy
    (match encoder with
      | .openH264 => .i420
      | .x264 => .nv12)
    { left := r.left
      top := r.top
      tileWidth := r.tileWidth
      tileHeight := r.tileHeight
      paddedWidth := (r.width.toInt.toNat + 15) / 16 * 16
      paddedHeight := (r.height.toInt.toNat + 15) / 16 * 16 }
    r.data picture r.rects

/-- The damage of requests copied into a picture, in order. -/
def copyAll (encoder : H264Encoder) (log : List EncodeRequest) (picture : ByteArray) :
    Option ByteArray :=
  log.foldlM (copyDamage encoder) picture

/-- A picture is of the region of a request: of its size in whole macroblocks, and in the layout
an encoder takes. -/
structure IsPictureOf (encoder : H264Encoder) (r : EncodeRequest) (picture : Picture) : Prop where
  width_eq : picture.width = (r.width.toInt.toNat + 15) / 16 * 16
  height_eq : picture.height = (r.height.toInt.toNat + 15) / 16 * 16
  layout_eq : picture.layout =
    match encoder with
    | .openH264 => .i420
    | .x264 => .nv12

variable {B}

/-- Calls are made one after the other. -/
theorem after_append (s : H264State P σ) (cs ds : List EncodeCall) :
    B.after s (cs ++ ds) = B.after (B.after s cs) ds := by
  induction cs generalizing s with
  | nil => rfl
  | cons c cs ih => exact ih _

/-- The pictures handed over are of the regions of their requests. -/
theorem isPictureOf_pictureOf (encoder : H264Encoder) (r : EncodeRequest) (scratch : ByteArray) :
    IsPictureOf encoder r (pictureOf encoder r scratch) := by
  cases encoder <;> exact ⟨rfl, rfl, rfl⟩

/-- Damage is copied into the layout of the encoder, by the geometry of its request. -/
theorem copyDamage_eq (encoder : H264Encoder) (picture : ByteArray) (r : EncodeRequest) :
    copyDamage encoder picture r =
      (geometry r).copy (layout encoder) r.data picture r.rects := by
  cases encoder <;> rfl

/-- Whether the scratch picture of a slot is what logged damage makes of a zeroed one, if the slot
is live. -/
def HoldsDamage (encoder : H264Encoder) (log : List EncodeRequest) (slot : Slot) : Prop :=
  slot.isLive = true →
    copyAll encoder log (Bytes.zeros (scratchBytes slot.width slot.height)) = some slot.scratch

/-- A slot without a context holds any damage. -/
theorem holdsDamage_of_context_eq_none {encoder : H264Encoder} {log : List EncodeRequest}
    {slot : Slot} (h : slot.context = none) : HoldsDamage encoder log slot := by
  intro hlive
  rw [Slot.isLive, Slot.context_eq_none_iff.mp h] at hlive
  cases hlive

/-- A copy into a scratch picture adds the request to the damage of its slot. -/
theorem HoldsDamage.copy {encoder : H264Encoder} {log : List EncodeRequest} {slot : Slot}
    {c : Context} (h : HoldsDamage encoder log slot) (hc : slot.context = some c)
    {r : EncodeRequest} {scratch : ByteArray}
    (hcopy : (geometry r).copy (layout encoder) r.data c.scratch r.rects = some scratch) :
    HoldsDamage encoder (log ++ [r]) { slot with scratch } := by
  intro hlive
  have hlog := h hlive
  rw [(Slot.context_eq_some_iff.mp hc).2] at hlog
  unfold copyAll at hlog
  rw [copyAll, List.foldlM_append]
  simp only [hlog, List.foldlM_cons, List.foldlM_nil, copyDamage_eq, hcopy, bind_pure,
    Option.bind_eq_bind, Option.bind_some]

/-- A preparation keeps the damage of its slot, or starts anew if it opens a session. -/
theorem HoldsDamage.prepared {E : Engine P σ} {h : Host P σ} {slot : Slot} {width height : Int32}
    {params : P} {out : Except BackendError ContextFlags × Host P σ × Slot}
    (hp : Pool.Prepared E h slot width height params out) {encoder : H264Encoder}
    {log : List EncodeRequest} (hs : HoldsDamage encoder log slot) :
    HoldsDamage encoder (if out.2.1.opened = h.opened then log else []) out.2.2 := by
  cases hp with
  | kept hfits =>
    rw [if_pos rfl]
    exact hs
  | emptied hfits hsize => exact holdsDamage_of_context_eq_none rfl
  | refused hfits hsize hopen => exact holdsDamage_of_context_eq_none rfl
  | opened hfits hsize hopen =>
    obtain ⟨rfl, hopened⟩ := Pool.openContext_eq_ok hopen
    rw [Pool.opened_destroy] at hopened
    rw [if_neg (by simp only [hopened]; omega)]
    exact fun _ => rfl

/-- Calls touch no slot but that of their request's channel. -/
theorem get_encode_of_ne {s : H264State P σ} {r : EncodeRequest} {i : Fin poolCapacity}
    (hi : slotIndex r.channelId ≠ i) (dest : ByteArray) :
    (B.encode s r dest).2.2.pool.get i = s.pool.get i := by
  have hprepared : ∀ {result host pool}, B.prepare s r = (result, host, pool) →
      pool.get i = s.pool.get i := by
    intro result host pool hprepare
    rw [(prepared_of_prepare hprepare).2]
    exact Pool.get_setSlot_of_ne hi
  have hcases := encoded_encode B s r dest
  generalize B.encode s r dest = out at hcases ⊢
  cases hcases with
  | rejected hinvalid => rfl
  | unprepared hvalid hprepare => exact hprepared hprepare
  | idle hvalid hprepare hidle => exact hprepared hprepare
  | uncopied hvalid hprepare hcontext hdata hcopy => exact hprepared hprepare
  | handed hvalid hprepare hcontext hdata hcopy =>
    rw [pool_encodePicture, Pool.setScratch_eq hcontext]
    exact (Pool.get_setSlot_of_ne hi).trans (hprepared hprepare)

/-- A call logs the damage of its slot. -/
theorem holdsDamage_encode_self {s : H264State P σ} (hs : s.pool.IsSound)
    {log : List EncodeRequest} {r : EncodeRequest}
    (hlog : HoldsDamage B.encoder log (s.pool.slot r.channelId)) (dest : ByteArray) :
    HoldsDamage B.encoder (logDamage (slotIndex r.channelId) log s (B.encode s r dest).2.2 r)
      ((B.encode s r dest).2.2.pool.slot r.channelId) := by
  have hcases := encoded_encode B s r dest
  generalize B.encode s r dest = out at hcases ⊢
  rw [logDamage, if_pos (show r.channelId.toNat % 16 = slotIndex r.channelId from rfl)]
  cases hcases with
  | rejected hinvalid =>
    rw [if_pos rfl, if_neg (by rw [r.bearsDamage_iff, hinvalid]; simp), List.append_nil]
    exact hlog
  | unprepared hvalid hprepare =>
    exact holdsDamage_of_context_eq_none (prepared_of_prepare hprepare).1.context_eq_none
  | idle hvalid hprepare hidle =>
    rcases hidle with hnone | hempty
    · exact holdsDamage_of_context_eq_none hnone
    · rw [if_neg (c := r.BearsDamage) (fun h => h.1 hempty), List.append_nil]
      exact hlog.prepared (prepared_of_prepare hprepare).1
  | uncopied hvalid hprepare hcontext hdata hcopy =>
    exact absurd hcopy (copy_ne_none hs hvalid hdata hprepare hcontext)
  | handed hvalid hprepare hcontext hdata hcopy =>
    have hprepared := hlog.prepared (prepared_of_prepare hprepare).1
    rw [pool_encodePicture, if_pos (r.bearsDamage_iff.mpr ⟨hvalid, hdata⟩),
      Pool.setScratch_eq hcontext, Pool.slot_setSlot]
    exact hprepared.copy hcontext hcopy

/-- A call logs the damage of every slot. -/
theorem holdsDamage_encode {s : H264State P σ} (hs : s.pool.IsSound) {i : Fin poolCapacity}
    {log : List EncodeRequest} (hlog : HoldsDamage B.encoder log (s.pool.get i))
    (r : EncodeRequest) (dest : ByteArray) :
    HoldsDamage B.encoder (logDamage i log s (B.encode s r dest).2.2 r)
      ((B.encode s r dest).2.2.pool.get i) := by
  by_cases hi : slotIndex r.channelId = i
  · subst hi
    exact holdsDamage_encode_self hs hlog dest
  · have hother : ¬ r.channelId.toNat % 16 = i := fun hval => hi (Fin.ext hval)
    rw [get_encode_of_ne hi, logDamage, if_neg hother]
    exact hlog

/-- After any calls, every slot holds the damage logged for it, and the pool is sound. -/
theorem holdsDamage_after {s : H264State P σ} (hs : s.pool.IsSound) {i : Fin poolCapacity}
    {log : List EncodeRequest} (hlog : HoldsDamage B.encoder log (s.pool.get i))
    (calls : List EncodeCall) :
    (B.after s calls).pool.IsSound ∧
      HoldsDamage B.encoder (B.damage i s log calls) ((B.after s calls).pool.get i) := by
  induction calls generalizing s log with
  | nil => exact ⟨hs, hlog⟩
  | cons c calls ih =>
    exact ih (isSound_encode hs c.request c.dest) (holdsDamage_encode hs hlog c.request c.dest)

/-- A request that is not valid changes nothing. -/
theorem encode_of_not_valid {r : EncodeRequest} (hinvalid : r.validate ≠ .ok ())
    (s : H264State P σ) (dest : ByteArray) : (B.encode s r dest).2.2 = s := by
  have hcases := encoded_encode B s r dest
  generalize B.encode s r dest = out at hcases ⊢
  cases hcases with
  | rejected hfault => rfl
  | unprepared hvalid hprepare => exact absurd hvalid hinvalid
  | idle hvalid hprepare hidle => exact absurd hvalid hinvalid
  | uncopied hvalid hprepare hcontext hdata hcopy => exact absurd hvalid hinvalid
  | handed hvalid hprepare hcontext hdata hcopy => exact absurd hvalid hinvalid

/-- A preparation for the size a slot is live with changes no slot. -/
theorem pool_of_prepare_of_fits {s : H264State P σ} {r : EncodeRequest}
    (hfits : (s.pool.slot r.channelId).fits r.width r.height = true)
    {result : Except BackendError ContextFlags} {host : Host P σ} {pool : Pool}
    (hprepare : B.prepare s r = (result, host, pool)) : pool = s.pool := by
  obtain ⟨hprepared, hpool⟩ := prepared_of_prepare hprepare
  have hslot : pool.slot r.channelId = s.pool.slot r.channelId := hprepared.slot_eq_of_fits hfits
  rw [hpool, hslot]
  exact Pool.setSlot_slot s.pool r.channelId

/-- A request without pixels for the size its slot is live with changes no slot. -/
theorem pool_encode_of_fits {s : H264State P σ} {r : EncodeRequest} (hempty : r.data.size = 0)
    (hfits : (s.pool.slot r.channelId).fits r.width r.height = true) (dest : ByteArray) :
    (B.encode s r dest).2.2.pool = s.pool := by
  have hcases := encoded_encode B s r dest
  generalize B.encode s r dest = out at hcases ⊢
  cases hcases with
  | rejected hinvalid => rfl
  | unprepared hvalid hprepare => exact pool_of_prepare_of_fits hfits hprepare
  | idle hvalid hprepare hidle => exact pool_of_prepare_of_fits hfits hprepare
  | uncopied hvalid hprepare hcontext hdata hcopy => exact absurd hempty hdata
  | handed hvalid hprepare hcontext hdata hcopy => exact absurd hempty hdata

/-- The pictures a call hands over: one, if its request bears damage and its slot is live in the
end, and then the scratch picture of that slot; otherwise none. -/
theorem pictures_encode {s : H264State P (Recorded σ)} (hs : s.pool.IsSound) (r : EncodeRequest)
    (dest : ByteArray) :
    let t := (B.recording.encode s r dest).2.2
    (∀ session, r.BearsDamage → (t.pool.slot r.channelId).session = some session →
      ((t.pool.slot r.channelId).width = r.width ∧ (t.pool.slot r.channelId).height = r.height) ∧
        t.host.pictures = s.host.pictures ++
          [(session, pictureOf B.encoder r (t.pool.slot r.channelId).scratch)]) ∧
    (¬ (r.BearsDamage ∧ (t.pool.slot r.channelId).isLive = true) →
      t.host.pictures = s.host.pictures) := by
  have hkept : ∀ {result host pool}, B.recording.prepare s r = (result, host, pool) →
      host.pictures = s.host.pictures := by
    intro result host pool hprepare
    have hpictures := (B.plain_prepare s r).2
    rw [hprepare] at hpictures
    exact hpictures
  have hcases := encoded_encode B.recording s r dest
  generalize B.recording.encode s r dest = out at hcases ⊢
  cases hcases with
  | rejected hinvalid =>
    refine ⟨fun session hbears _ => ?_, fun _ => rfl⟩
    have hvalid := (r.bearsDamage_iff.mp hbears).1
    rw [hinvalid] at hvalid
    cases hvalid
  | unprepared hvalid hprepare =>
    refine ⟨fun session _ hsession => ?_, fun _ => hkept hprepare⟩
    have hnone := (prepared_of_prepare hprepare).1.context_eq_none
    rw [Slot.context_eq_none_iff.mp hnone] at hsession
    cases hsession
  | idle hvalid hprepare hidle =>
    refine ⟨fun session hbears hsession => ?_, fun _ => hkept hprepare⟩
    rcases hidle with hnone | hempty
    · rw [Slot.context_eq_none_iff.mp hnone] at hsession
      cases hsession
    · exact absurd hempty hbears.1
  | uncopied hvalid hprepare hcontext hdata hcopy =>
    exact absurd hcopy (copy_ne_none hs hvalid hdata hprepare hcontext)
  | @handed hvalid flags host pool hprepare c hcontext hdata scratch hcopy =>
    have hlive : (pool.slot r.channelId).session = some c.session :=
      (Slot.context_eq_some_iff.mp hcontext).1
    simp only [pool_encodePicture, Pool.setScratch_eq hcontext, Pool.slot_setSlot]
    refine ⟨fun session _ hsession => ?_, fun hnot => absurd
      ⟨r.bearsDamage_iff.mpr ⟨hvalid, hdata⟩, Option.isSome_of_eq_some hlive⟩ hnot⟩
    obtain rfl : session = c.session := Option.some.inj (hsession.symm.trans hlive)
    refine ⟨(prepared_of_prepare hprepare).1.size_eq, ?_⟩
    rw [← hkept hprepare]
    exact (B.engine.plain_encodeIn host c.session (pictureOf B.encoder r scratch)).2

/-- Recording changes nothing in a run. -/
theorem plain_after (s : H264State P (Recorded σ)) (calls : List EncodeCall) :
    plain (B.recording.after s calls) = B.after (plain s) calls := by
  induction calls generalizing s with
  | nil => rfl
  | cons c calls ih =>
    have hencode := B.plain_encode s c.request c.dest
    simp only [after, hencode]
    exact ih _

/-- What an encode call at the end of a run of calls does with the damage it is given. -/
structure PreservesDamage (B : H264Backend P σ) (state : σ) (calls : List EncodeCall)
    (r : EncodeRequest) (dest : ByteArray) : Prop where
  /-- Keeping the pictures changes no call and no state. -/
  faithful :
    let s := B.recording.after (fresh (state, [])) calls
    let out := B.recording.encode s r dest
    plain s = B.after (fresh state) calls ∧
      B.encode (B.after (fresh state) calls) r dest = (out.1, out.2.1, plain out.2.2)
  /-- The session is handed the picture of the region: what the damage since the last opening,
  that of the call included, makes of a zeroed scratch picture. -/
  handed :
    let s := B.recording.after (fresh (state, [])) calls
    let t := (B.recording.encode s r dest).2.2
    ∀ i : Fin poolCapacity, i = r.channelId.toNat % 16 → r.BearsDamage →
      ∀ session, (t.pool.get i).session = some session →
        ∃ picture, t.host.pictures = s.host.pictures ++ [(session, picture)] ∧
          IsPictureOf B.encoder r picture ∧ picture.data = (t.pool.get i).scratch ∧
          copyAll B.encoder
            (B.recording.damage i (fresh (state, [])) [] (calls ++ [⟨r, dest⟩]))
            (Bytes.zeros (picture.width * picture.height * 2)) = some picture.data
  /-- Without damage or without a session, no session is handed anything. -/
  withheld :
    let s := B.recording.after (fresh (state, [])) calls
    let t := (B.recording.encode s r dest).2.2
    ∀ i : Fin poolCapacity, i = r.channelId.toNat % 16 →
      ¬ (r.BearsDamage ∧ (t.pool.get i).session.isSome = true) →
      t.host.pictures = s.host.pictures
  others : ∀ i : Fin poolCapacity, i ≠ r.channelId.toNat % 16 →
    (B.encode (B.after (fresh state) calls) r dest).2.2.pool.get i =
      (B.after (fresh state) calls).pool.get i
  invalid : r.validate ≠ .ok () →
    (B.encode (B.after (fresh state) calls) r dest).2.2.pool = (B.after (fresh state) calls).pool
  empty : r.data.size = 0 →
    let slot := (B.after (fresh state) calls).pool.slot r.channelId
    slot.session.isSome = true → slot.width = r.width → slot.height = r.height →
    (B.encode (B.after (fresh state) calls) r dest).2.2.pool = (B.after (fresh state) calls).pool

/-- No call of any run loses damage, hands over another picture or touches another slot. -/
theorem preservesDamage (B : H264Backend P σ) (state : σ) (calls : List EncodeCall)
    (r : EncodeRequest) (dest : ByteArray) : B.PreservesDamage state calls r dest := by
  have hstart : ∀ i : Fin poolCapacity,
      HoldsDamage B.encoder []
        ((fresh (P := P) ((state, []) : Recorded σ)).pool.get i) := by
    intro i
    exact holdsDamage_of_context_eq_none (congrArg Slot.context (Pool.get_empty i))
  have hsound : (fresh (P := P) ((state, []) : Recorded σ)).pool.IsSound := Pool.isSound_empty
  have hpictures := pictures_encode (B := B)
    (holdsDamage_after (B := B.recording) hsound (hstart (slotIndex r.channelId)) calls).1 r dest
  have hplain := plain_after (B := B) (fresh (state, [])) calls
  constructor
  · refine ⟨hplain, ?_⟩
    have hencode := B.plain_encode (B.recording.after (fresh (state, [])) calls) r dest
    rw [hplain] at hencode
    exact hencode
  · rintro s t i hi hbears session hsession
    obtain rfl : i = slotIndex r.channelId := Fin.ext hi
    obtain ⟨⟨hw, hh⟩, hhanded⟩ := hpictures.1 session hbears hsession
    have hdamage : HoldsDamage B.encoder (B.recording.damage (slotIndex r.channelId)
        (fresh (state, [])) [] (calls ++ [⟨r, dest⟩])) (t.pool.slot r.channelId) := by
      have hafter := (holdsDamage_after (B := B.recording) hsound
        (hstart (slotIndex r.channelId)) (calls ++ [⟨r, dest⟩])).2
      rw [after_append] at hafter
      exact hafter
    have hfolded := hdamage (Option.isSome_of_eq_some hsession)
    rw [hw, hh] at hfolded
    exact ⟨_, hhanded, isPictureOf_pictureOf B.encoder r _, rfl, hfolded⟩
  · rintro s t i hi
    obtain rfl : i = slotIndex r.channelId := Fin.ext hi
    exact hpictures.2
  · exact fun i hi => get_encode_of_ne (fun heq => hi (congrArg Fin.val heq).symm) dest
  · exact fun hinvalid => congrArg H264State.pool (encode_of_not_valid hinvalid _ dest)
  · exact fun hempty hlive hw hh =>
      pool_encode_of_fits hempty (Slot.fits_eq_true_iff.mpr ⟨hlive, hw, hh⟩) dest

end H264Backend

end FrameEncoder
