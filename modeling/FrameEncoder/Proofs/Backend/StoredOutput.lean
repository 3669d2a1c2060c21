import FrameEncoder.Engine.Script
import FrameEncoder.Proofs.Backend.Calls
import FrameEncoder.Proofs.Backend.Storing
import Mathlib.Algebra.GroupWithZero.Nat

/-!
# Output is whole or reported

Coded output reaches a destination completely, or the call fails and says why. How much of it a
failed call leaves behind depends on the encoder: one has by then laid the units that had room,
the other has not touched the destination. This holds of the storing alone and of every encode
call whose session answers with coded layers, layers without units and units without bytes
included.
-/

namespace FrameEncoder

deriving instance DecidableEq for SessionReply

/-- The bytes of all units of some layers. -/
def totalLength (layers : List Layer) : Nat :=
  (layers.map fun l => (l.units.map ByteArray.size).sum).sum

/-- Several buffers have the bytes of each. -/
theorem Bytes.totalSize_eq_sum (us : List ByteArray) :
    totalSize us = (us.map ByteArray.size).sum := by
  induction us with
  | nil => rfl
  | cons u us ih => rw [totalSize, ih, List.map_cons, List.sum_cons]

/-- Coded output has the bytes of all its units. -/
theorem CodedOutput.length_coded (layers : List Layer) :
    (coded layers).length = totalLength layers := by
  induction layers with
  | nil => rfl
  | cons l layers ih =>
    rw [length_coded_cons, ih, Layer.length, Bytes.totalSize_eq_sum]
    rfl

namespace H264Backend

/-- Storing that lays unit after unit: it succeeds if all of the output has room. Otherwise it
reports the room that was needed, and leaves the longest run of first units that had room. -/
structure UnitByUnit (layers : List Layer) (dest : ByteArray) (result : Except BackendError Nat)
    (after : ByteArray) : Prop where
  ok_iff : (∃ n, result = .ok n) ↔ totalLength layers ≤ dest.size
  stored : ∀ n, result = .ok n → n = totalLength layers ∧
    Bytes.toList after = laidOver (CodedOutput.coded layers).units dest
  failed : ∀ e, result = .error e → e = .overflow (totalLength layers) dest.size ∧
    ∃ fitted, IsLongestFit (CodedOutput.coded layers).units fitted dest.size ∧
      Bytes.toList after = laidOver fitted dest

/-- Storing that measures first: it succeeds if there is output and all of it has room. Otherwise
it reports which of the two is missing, and leaves the destination as it was. -/
structure AllOrNothing (layers : List Layer) (dest : ByteArray)
    (result : Except BackendError Nat) (after : ByteArray) : Prop where
  ok_iff : (∃ n, result = .ok n) ↔ 0 < totalLength layers ∧ totalLength layers ≤ dest.size
  stored : ∀ n, result = .ok n → n = totalLength layers ∧
    Bytes.toList after = laidOver (CodedOutput.coded layers).units dest
  overflow_iff : ∀ needed capacity, result = .error (.overflow needed capacity) ↔
    dest.size < totalLength layers ∧ needed = totalLength layers ∧ capacity = dest.size
  encodeFailed_iff : ∀ cause, result = .error (.encodeFailed cause) ↔
    totalLength layers = 0 ∧ cause = .emptyPayload
  untouched : ∀ e, result = .error e → after = dest

/-- Storing by the rule of an encoder. -/
def StoresBy (encoder : H264Encoder) (layers : List Layer) (dest : ByteArray)
    (result : Except BackendError Nat) (after : ByteArray) : Prop :=
  match encoder with
  | .openH264 => UnitByUnit layers dest result after
  | .x264 => AllOrNothing layers dest result after

/-- What an encoder does with output. -/
def storing (encoder : H264Encoder) (output : CodedOutput) (dest : ByteArray) :
    Option (Except BackendError Nat × ByteArray) :=
  match encoder with
  | .openH264 => some (storeUnitByUnit output dest)
  | .x264 => storeMeasured output dest

/-- Every encoder stores coded layers, each by its rule. -/
theorem storing_coded (encoder : H264Encoder) (layers : List Layer) (dest : ByteArray) :
    storing encoder (.coded layers) dest = some (store encoder layers dest) := by
  cases encoder with
  | openH264 => exact congrArg some (storeUnitByUnit_coded layers dest)
  | x264 => exact storeMeasured_coded layers dest

/-- One encoder stores unit by unit. -/
theorem unitByUnit_store (layers : List Layer) (dest : ByteArray) :
    let out := store .openH264 layers dest
    UnitByUnit layers dest out.1 out.2 := by
  intro out
  have hout : out = _ := store_openH264 layers dest
  rw [CodedOutput.length_coded] at hout
  constructor
  · rw [hout]
    split
    · next hfits => exact ⟨fun _ => hfits, fun _ => ⟨_, rfl⟩⟩
    · next hfits => exact ⟨nofun, fun h => absurd h hfits⟩
  · intro n hn
    rw [← CodedOutput.length_coded]
    exact eq_laidOver_of_store hn
  · intro e he
    obtain ⟨fitted, hfitted, -, hbytes⟩ := exists_laidOver (CodedOutput.coded layers).units dest
    refine ⟨?_, fitted, hfitted, by rw [hout]; exact hbytes⟩
    rw [hout] at he
    split at he
    · cases he
    · exact (Except.error.inj he).symm

/-- The other stores all or nothing. -/
theorem allOrNothing_store (layers : List Layer) (dest : ByteArray) :
    let out := store .x264 layers dest
    AllOrNothing layers dest out.1 out.2 := by
  intro out
  have hout : out = _ := store_x264 layers dest
  have hstored : ∀ n, out.1 = .ok n → n = totalLength layers ∧
      Bytes.toList out.2 = laidOver (CodedOutput.coded layers).units dest := by
    intro n hn
    rw [← CodedOutput.length_coded]
    exact eq_laidOver_of_store hn
  rw [CodedOutput.length_coded] at hout
  obtain hnone | hsome := Nat.eq_zero_or_pos (totalLength layers)
  · rw [if_pos hnone] at hout
    rw [hout] at hstored ⊢
    refine ⟨⟨nofun, fun h => absurd hnone (Nat.ne_of_gt h.1)⟩, hstored, fun needed capacity => ?_,
      fun cause => ?_, fun _ _ => rfl⟩
    · exact ⟨nofun, fun h => absurd h.1 (by omega)⟩
    · constructor
      · rintro ⟨⟩
        exact ⟨hnone, rfl⟩
      · rintro ⟨-, rfl⟩
        rfl
  · rw [if_neg (Nat.ne_of_gt hsome)] at hout
    by_cases hfits : totalLength layers ≤ dest.size
    · rw [if_pos hfits] at hout
      rw [hout] at hstored ⊢
      refine ⟨⟨fun _ => ⟨hsome, hfits⟩, fun _ => ⟨_, rfl⟩⟩, hstored, fun needed capacity => ?_,
        fun cause => ?_, nofun⟩
      · exact ⟨nofun, fun h => absurd hfits (Nat.not_le_of_lt h.1)⟩
      · exact ⟨nofun, fun h => absurd h.1 (Nat.ne_of_gt hsome)⟩
    · rw [if_neg hfits] at hout
      rw [hout] at hstored ⊢
      refine ⟨⟨nofun, fun h => absurd h.2 hfits⟩, hstored, fun needed capacity => ?_,
        fun cause => ?_, fun _ _ => rfl⟩
      · constructor
        · rintro ⟨⟩
          exact ⟨Nat.lt_of_not_le hfits, rfl, rfl⟩
        · rintro ⟨-, rfl, rfl⟩
          rfl
      · exact ⟨nofun, fun h => absurd h.1 (Nat.ne_of_gt hsome)⟩

/-- Every encoder stores by its rule. -/
theorem storesBy_store (encoder : H264Encoder) (layers : List Layer) (dest : ByteArray) :
    let out := store encoder layers dest
    StoresBy encoder layers dest out.1 out.2 := by
  cases encoder with
  | openH264 => exact unitByUnit_store layers dest
  | x264 => exact allOrNothing_store layers dest

variable {P σ : Type} {B : H264Backend P σ}

/-- The session of a call is handed the damaged picture and makes coded layers of it. -/
structure Codes (B : H264Backend P σ) (s : H264State P σ) (r : EncodeRequest)
    (flags : ContextFlags) (layers : List Layer) : Prop where
  valid : r.validate = .ok ()
  prepared : (B.prepare s r).1.toOption = some flags
  nonempty : r.data.size ≠ 0
  coded : let out := B.prepare s r
    ∃ c ∈ (out.2.2.slot r.channelId).context,
      ∃ scratch ∈ (geometry r).copy (layout B.encoder) r.data c.scratch r.rects,
        (B.engine.encodeIn out.2.1 c.session (pictureOf B.encoder r scratch)).1 =
          .output (.coded layers)

/-- The reply to a call of these flags whose output was stored, or was not. -/
def replyOf (flags : ContextFlags) : Except BackendError Nat → EncodeReply
  | .ok bytesWritten => .done ⟨bytesWritten, flags⟩
  | .error e => .failed e

/-- A call whose session makes coded layers replies as their storing does, and leaves what that
leaves. -/
theorem encode_of_codes {s : H264State P σ} {r : EncodeRequest} {flags : ContextFlags}
    {layers : List Layer} (h : B.Codes s r flags layers) (dest : ByteArray) :
    let stored := store B.encoder layers dest
    let out := B.encode s r dest
    out.1 = replyOf flags stored.1 ∧ out.2.1 = stored.2 := by
  obtain ⟨hvalid, hprepared, hdata, c, hcontext, scratch, hcopy, hcoded⟩ := h
  simp only [encode_eq, encodeInForm, hvalid]
  cases hprepare : B.prepare s r with
  | mk reply rest =>
    obtain ⟨host, pool⟩ := rest
    rw [hprepare] at hprepared hcontext hcoded
    obtain rfl : reply = .ok flags := by
      cases reply with
      | error e => cases hprepared
      | ok flags' => rw [Option.some.inj hprepared]
    rw [Option.mem_def] at hcontext hcopy
    simp only at hcontext hcoded
    simp only [encodePrepared, hcontext, if_neg hdata, hcopy, encodePicture]
    cases hreply : B.engine.encodeIn host c.session (pictureOf B.encoder r scratch) with
    | mk answer host' =>
      obtain rfl : answer = .output (.coded layers) := by rw [hreply] at hcoded; exact hcoded
      cases hstore : store B.encoder layers dest with
      | mk result after => cases result <;> simp only [hstore, replyOf, and_self]

/-- Coded output is whole or reported: so it is with the storing by itself, and with every encode
call whose session makes coded layers, whatever the layers and the destination are. -/
theorem storesBy_encode (B : H264Backend P σ) :
    (∀ layers dest, ∃ result after,
      storing B.encoder (.coded layers) dest = some (result, after) ∧
        StoresBy B.encoder layers dest result after) ∧
    ∀ s r flags layers, B.Codes s r flags layers → ∀ dest,
      let out := B.encode s r dest
      ∃ result, out.1 = replyOf flags result ∧
        StoresBy B.encoder layers dest result out.2.1 := by
  refine ⟨fun layers dest => ⟨_, _, storing_coded B.encoder layers dest,
    storesBy_store B.encoder layers dest⟩, fun s r flags layers hcodes dest => ?_⟩
  obtain ⟨hreply, hafter⟩ := encode_of_codes hcodes dest
  refine ⟨_, hreply, ?_⟩
  rw [hafter]
  exact storesBy_store B.encoder layers dest

/-- Four bytes in three units for room for three, by either encoder. -/
theorem storesBy_encode_threeOfFour :
    let layers : List Layer := [⟨[⟨#[1, 2, 3]⟩, .empty]⟩, ⟨[⟨#[4]⟩]⟩]
    let script : Script := ⟨[], [], .layers layers⟩
    let openH264 : H264Backend OpenH264Params Script :=
      ⟨.openH264, Script.engine _, .const .constants⟩
    let x264 : H264Backend X264Params Script := ⟨.x264, Script.engine _, .const .constants⟩
    let request : EncodeRequest :=
      ⟨0, 0, 0, 4, 4, 4, 4, .nv12, Bytes.zeros 24, [⟨0, 0, 4, 4⟩], .lan⟩
    let dest := Bytes.zeros 3
    let out := openH264.encode (fresh script) request dest
    let out' := x264.encode (fresh script) request dest
    (openH264.Codes (fresh script) request ⟨true, false⟩ layers ∧
      x264.Codes (fresh script) request ⟨true, false⟩ layers) ∧
    (Bytes.toList out.2.1 = [1, 2, 3] ∧ Bytes.toList out'.2.1 = [0, 0, 0]) ∧
    (∃ result, out.1 = replyOf ⟨true, false⟩ result ∧
      StoresBy .openH264 layers dest result out.2.1) ∧
    ∃ result, out'.1 = replyOf ⟨true, false⟩ result ∧
      StoresBy .x264 layers dest result out'.2.1 := by
  intro layers script openH264 x264 request dest out out'
  have hvalid : request.validate = .ok () :=
    request.validate_eq_ok_iff.mpr (.inr (by decide +kernel))
  have hopen : openH264.Codes (fresh script) request ⟨true, false⟩ layers :=
    ⟨hvalid, by decide +kernel, by decide +kernel, by decide +kernel⟩
  have hx : x264.Codes (fresh script) request ⟨true, false⟩ layers :=
    ⟨hvalid, by decide +kernel, by decide +kernel, by decide +kernel⟩
  refine ⟨⟨hopen, hx⟩, by decide +kernel, ?_, ?_⟩
  · exact (storesBy_encode openH264).2 _ _ _ _ hopen dest
  · exact (storesBy_encode x264).2 _ _ _ _ hx dest

end H264Backend

end FrameEncoder
