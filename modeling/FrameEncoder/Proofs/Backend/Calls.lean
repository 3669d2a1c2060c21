import FrameEncoder.Proofs.Backend.Bodies
import FrameEncoder.Proofs.Picture.Clipping
import FrameEncoder.Proofs.Pool.Preparation

/-!
# What an encode call does

An encode call ends in one of five ways: the request is rejected, its slot cannot be prepared,
there is nothing to encode, the damage cannot be copied, or a picture is handed to the session.
The fourth never happens, since the pool stays sound: a scratch picture has room for the padded
picture of every request that reaches it. So a call crashes only if a session does.
-/

namespace FrameEncoder

/-- Whether no session of an engine ever crashes. -/
def Engine.NeverCrashes {P σ : Type} (E : Engine P σ) : Prop :=
  ∀ state session picture, (E.encode state session picture).1 ≠ .crashed

namespace H264Backend

variable {P σ : Type} {B : H264Backend P σ}

/-- What an encode call comes to: its reply, the destination and the state afterwards. -/
inductive Encoded (B : H264Backend P σ) (s : H264State P σ) (r : EncodeRequest)
    (dest : ByteArray) : EncodeReply × ByteArray × H264State P σ → Prop
  /-- The request is not valid. -/
  | rejected {fault : InputFault} (hinvalid : r.validate = .error fault) :
      Encoded B s r dest (.failed (.invalidInput fault), dest, s)
  /-- The slot cannot be prepared. -/
  | unprepared (hvalid : r.validate = .ok ()) {e : BackendError} {host : Host P σ} {pool : Pool}
      (hprepare : B.prepare s r = (.error e, host, pool)) :
      Encoded B s r dest (.failed e, dest, ⟨pool, host⟩)
  /-- There is no context, or there are no pixels. -/
  | idle (hvalid : r.validate = .ok ()) {flags : ContextFlags} {host : Host P σ} {pool : Pool}
      (hprepare : B.prepare s r = (.ok flags, host, pool))
      (hidle : (pool.slot r.channelId).context = none ∨ r.data.size = 0) :
      Encoded B s r dest (.done ⟨0, flags⟩, dest, ⟨pool, host⟩)
  /-- The damage does not fit the scratch picture. -/
  | uncopied (hvalid : r.validate = .ok ()) {flags : ContextFlags} {host : Host P σ} {pool : Pool}
      (hprepare : B.prepare s r = (.ok flags, host, pool)) {c : Context}
      (hcontext : (pool.slot r.channelId).context = some c) (hdata : r.data.size ≠ 0)
      (hcopy : (geometry r).copy (layout B.encoder) r.data c.scratch r.rects = none) :
      Encoded B s r dest (.crashed, dest, ⟨pool, host⟩)
  /-- The damaged scratch picture is handed to the session. -/
  | handed (hvalid : r.validate = .ok ()) {flags : ContextFlags} {host : Host P σ} {pool : Pool}
      (hprepare : B.prepare s r = (.ok flags, host, pool)) {c : Context}
      (hcontext : (pool.slot r.channelId).context = some c) (hdata : r.data.size ≠ 0)
      {scratch : ByteArray}
      (hcopy : (geometry r).copy (layout B.encoder) r.data c.scratch r.rects = some scratch) :
      Encoded B s r dest (B.encodePicture ⟨pool.setScratch r.channelId scratch, host⟩ c.session
        (pictureOf B.encoder r scratch) flags dest)

/-- An encode call comes to one of these. -/
theorem encoded_encode (B : H264Backend P σ) (s : H264State P σ) (r : EncodeRequest)
    (dest : ByteArray) : Encoded B s r dest (B.encode s r dest) := by
  rw [encode_eq]
  unfold encodeInForm
  split
  · next hinvalid => exact .rejected hinvalid
  · next hvalid =>
    split
    · next hprepare => exact .unprepared hvalid hprepare
    · next hprepare =>
      unfold encodePrepared
      simp only
      split
      · next hnone => exact .idle hvalid hprepare (.inl hnone)
      · next hcontext =>
        split
        · next hempty => exact .idle hvalid hprepare (.inr hempty)
        · next hdata =>
          split
          · next hcopy => exact .uncopied hvalid hprepare hcontext hdata hcopy
          · next hcopy => exact .handed hvalid hprepare hcontext hdata hcopy

/-- A valid request with pixels fills its tile. -/
theorem fillsTile_of_validate {r : EncodeRequest} (hvalid : r.validate = .ok ())
    (hdata : r.data.size ≠ 0) : (geometry r).FillsTile r.data := by
  rcases r.validate_eq_ok_iff.mp hvalid with hempty | ⟨-, hsize⟩
  · exact absurd hempty hdata
  · exact hsize

/-- The scratch picture of a request's region has room for its padded picture. -/
theorem hasRoom_of_size {r : EncodeRequest} {scratch : ByteArray}
    (hsize : scratch.size = scratchBytes r.width r.height) : (geometry r).HasRoom scratch := by
  simp only [CopyGeometry.HasRoom, CopyGeometry.lumaLength, geometry, hsize, scratchBytes]
  omega

/-- The slot of a request after its preparation. -/
theorem prepared_of_prepare {s : H264State P σ} {r : EncodeRequest}
    {result : Except BackendError ContextFlags} {host : Host P σ} {pool : Pool}
    (hprepare : B.prepare s r = (result, host, pool)) :
    Pool.Prepared B.engine s.host (s.pool.slot r.channelId) r.width r.height
        (B.table.forEncode r.tuningClass) (result, host, pool.slot r.channelId) ∧
      pool = s.pool.setSlot r.channelId (pool.slot r.channelId) := by
  have hcases := Pool.prepared_prepareSlot B.engine s.host (s.pool.slot r.channelId) r.width
    r.height (B.table.forEncode r.tuningClass)
  unfold prepare Pool.prepare at hprepare
  revert hcases hprepare
  generalize Pool.prepareSlot B.engine s.host (s.pool.slot r.channelId) r.width r.height
    (B.table.forEncode r.tuningClass) = out
  obtain ⟨result', host', slot⟩ := out
  intro hprepare hcases
  simp only [Prod.mk.injEq] at hprepare
  obtain ⟨rfl, rfl, rfl⟩ := hprepare
  rw [Pool.slot_setSlot]
  exact ⟨hcases, rfl⟩

/-- A preparation keeps the pool sound. -/
theorem isSound_of_prepare {s : H264State P σ} {r : EncodeRequest}
    {result : Except BackendError ContextFlags} {host : Host P σ} {pool : Pool}
    (hs : s.pool.IsSound) (hprepare : B.prepare s r = (result, host, pool)) : pool.IsSound := by
  obtain ⟨hprepared, hpool⟩ := prepared_of_prepare hprepare
  rw [hpool]
  exact hs.setSlot r.channelId (hprepared.isSound (hs (slotIndex r.channelId)))

/-- After a preparation, the scratch picture of a request's slot has the size for its region. -/
theorem size_scratch_of_prepare {s : H264State P σ} {r : EncodeRequest} {flags : ContextFlags}
    {host : Host P σ} {pool : Pool} (hs : s.pool.IsSound)
    (hprepare : B.prepare s r = (.ok flags, host, pool)) {c : Context}
    (hcontext : (pool.slot r.channelId).context = some c) :
    c.scratch.size = scratchBytes r.width r.height := by
  obtain ⟨hw, hh⟩ := (prepared_of_prepare hprepare).1.size_eq
  have hsize := ((isSound_of_prepare hs hprepare (slotIndex r.channelId)).of_context hcontext).2
  rw [← hw, ← hh]
  exact hsize

/-- After a preparation, the damage of a valid request can be copied. -/
theorem copy_ne_none {s : H264State P σ} {r : EncodeRequest} {flags : ContextFlags}
    {host : Host P σ} {pool : Pool} (hs : s.pool.IsSound) (hvalid : r.validate = .ok ())
    (hdata : r.data.size ≠ 0) (hprepare : B.prepare s r = (.ok flags, host, pool)) {c : Context}
    (hcontext : (pool.slot r.channelId).context = some c) :
    (geometry r).copy (layout B.encoder) r.data c.scratch r.rects ≠ none := by
  obtain ⟨out, hout, -⟩ := CopyGeometry.exists_copy (fillsTile_of_validate hvalid hdata)
    (hasRoom_of_size (size_scratch_of_prepare hs hprepare hcontext)) (layout B.encoder) r.rects
  rw [hout]
  exact Option.some_ne_none out

/-- Encoding a picture changes no slot. -/
theorem pool_encodePicture (s : H264State P σ) (session : SessionId) (picture : Picture)
    (flags : ContextFlags) (dest : ByteArray) :
    (B.encodePicture s session picture flags dest).2.2 =
      { s with host := (B.engine.encodeIn s.host session picture).2 } := by
  unfold encodePicture
  split
  · next h => rw [h]
  · next h => rw [h]
  · next h => rw [h]
  · next h =>
    rw [h]
    split <;> rfl

/-- A session that does not crash makes the call return. -/
theorem encodePicture_ne_crashed (hE : B.engine.NeverCrashes) (s : H264State P σ)
    (session : SessionId) (picture : Picture) (flags : ContextFlags) (dest : ByteArray) :
    (B.encodePicture s session picture flags dest).1 ≠ .crashed := by
  unfold encodePicture
  split
  · next h => exact absurd (congrArg Prod.fst h) (hE s.host.state session picture)
  · intro hc
    cases hc
  · intro hc
    cases hc
  · split
    · intro hc
      cases hc
    · intro hc
      cases hc

/-- An encode call keeps the pool sound. -/
theorem isSound_encode {s : H264State P σ} (hs : s.pool.IsSound) (r : EncodeRequest)
    (dest : ByteArray) : (B.encode s r dest).2.2.pool.IsSound := by
  have hcases := encoded_encode B s r dest
  generalize B.encode s r dest = out at hcases ⊢
  cases hcases with
  | rejected hinvalid => exact hs
  | unprepared hvalid hprepare => exact isSound_of_prepare hs hprepare
  | idle hvalid hprepare hidle => exact isSound_of_prepare hs hprepare
  | uncopied hvalid hprepare hcontext hdata hcopy => exact isSound_of_prepare hs hprepare
  | handed hvalid hprepare hcontext hdata hcopy =>
    rw [pool_encodePicture]
    exact (isSound_of_prepare hs hprepare).setScratch hcontext (CopyGeometry.size_of_copy hcopy)

/-- An encode call on a sound pool returns if the session does. -/
theorem encode_ne_crashed (hE : B.engine.NeverCrashes) {s : H264State P σ}
    (hs : s.pool.IsSound) (r : EncodeRequest) (dest : ByteArray) :
    (B.encode s r dest).1 ≠ .crashed := by
  have hcases := encoded_encode B s r dest
  generalize B.encode s r dest = out at hcases ⊢
  cases hcases with
  | rejected hinvalid =>
    intro hc
    cases hc
  | unprepared hvalid hprepare =>
    intro hc
    cases hc
  | idle hvalid hprepare hidle =>
    intro hc
    cases hc
  | uncopied hvalid hprepare hcontext hdata hcopy =>
    exact absurd hcopy (copy_ne_none hs hvalid hdata hprepare hcontext)
  | handed hvalid hprepare hcontext hdata hcopy => exact encodePicture_ne_crashed hE _ _ _ _ _

/-- The states of a backend that its callers can bring about. -/
inductive Reachable [Inhabited P] (B : H264Backend P σ) : H264State P σ → Prop
  | fresh (state : σ) : Reachable B (fresh state)
  | selfTest {s : H264State P σ} : Reachable B s → Reachable B (B.selfTest s).2
  | encode {s : H264State P σ} (r : EncodeRequest) (dest : ByteArray) :
      Reachable B s → Reachable B (B.encode s r dest).2.2
  | release {s : H264State P σ} : Reachable B s → Reachable B (release s)

/-- The pool of a reachable state is sound. -/
theorem Reachable.isSound [Inhabited P] {s : H264State P σ} (hs : B.Reachable s) :
    s.pool.IsSound := by
  induction hs with
  | fresh state => exact Pool.isSound_empty
  | selfTest _ ih => exact ih
  | encode r dest _ ih => exact isSound_encode ih r dest
  | @release s _ _ => exact Pool.isSound_clear s.host s.pool

end H264Backend

end FrameEncoder
