import FrameEncoder.Engine.Script
import FrameEncoder.Proofs.Backend.Damage
import FrameEncoder.Proofs.Backend.Storing
import Mathlib.Data.List.Forall2

/-!
# Two backends in lockstep

Two H.264 backends are run on the same requests, over libraries that answer alike whatever they
are tuned with and whatever the pixels are. Their pictures differ in layout and their rules of
storing units differ, but no caller can tell: call by call the reply is the same, what is stored
of it is the same, the libraries were asked for the same, and the slots are in the same condition.
-/

namespace FrameEncoder

variable {P Q σ : Type}

/-- Two libraries that answer alike in the states of a set which they never leave, and whose
output is never empty. Parameters and pixels make no difference to an answer. -/
structure Engine.AgreeOn (I : σ → Prop) (E : Engine P σ) (E' : Engine Q σ) : Prop where
  openSession : ∀ state, I state → ∀ width height p q,
    E.openSession state width height p = E'.openSession state width height q ∧
      I (E.openSession state width height p).2
  encode : ∀ state, I state → ∀ session (p q : Picture), p.width = q.width → p.height = q.height →
    E.encode state session p = E'.encode state session q ∧ I (E.encode state session p).2
  allocate : ∀ state, I state → ∀ bytes,
    E.allocate state bytes = E'.allocate state bytes ∧ I (E.allocate state bytes).2
  output_pos : ∀ state, I state → ∀ session p layers,
    (E.encode state session p).1 = .output (.coded layers) → 0 < (CodedOutput.coded layers).length

/-- The same thing asked of two libraries, with parameters and a picture layout of their own. -/
inductive EngineEvent.Alike : EngineEvent P → EngineEvent Q → Prop
  | opened (session : Option SessionId) (width height : Nat) (p : P) (q : Q) :
      Alike (.opened session width height p) (.opened session width height q)
  | encoded (session : SessionId) (width height : Nat) (layout layout' : PlaneLayout)
      (length : Nat) :
      Alike (.encoded session width height layout length)
        (.encoded session width height layout' length)
  | closed (session : SessionId) : Alike (.closed session) (.closed session)

/-- Two libraries in use that are in the same state and were asked for the same. -/
structure Host.Alike (I : σ → Prop) (h : Host P σ) (k : Host Q σ) : Prop where
  lawful : I h.state
  state_eq : h.state = k.state
  opened_eq : h.opened = k.opened
  events : List.Forall₂ EngineEvent.Alike h.events k.events

/-- Two slots of one size with the same session or none, and with scratch pictures of one
length. -/
structure Slot.Alike (s t : Slot) : Prop where
  width_eq : s.width = t.width
  height_eq : s.height = t.height
  session_eq : s.session = t.session
  size_scratch_eq : s.scratch.size = t.scratch.size

namespace Host

variable {I : σ → Prop} {h : Host P σ} {k : Host Q σ}

/-- Libraries stay alike if the same is asked of both. -/
theorem Alike.record (halike : Alike I h k) {e : EngineEvent P} {f : EngineEvent Q}
    (hef : e.Alike f) : Alike I (h.record e) (k.record f) :=
  ⟨halike.lawful, halike.state_eq, halike.opened_eq,
    List.rel_append halike.events (.cons hef .nil)⟩

/-- Libraries stay alike if both close a session. -/
theorem Alike.close (halike : Alike I h k) (session : SessionId) :
    Alike I (h.close session) (k.close session) :=
  halike.record (.closed session)

end Host

namespace Engine

variable {I : σ → Prop} {E : Engine P σ} {E' : Engine Q σ} {h : Host P σ} {k : Host Q σ}

/-- Opening a session is the same with either library. -/
theorem alike_openIn (hE : AgreeOn I E E') (halike : Host.Alike I h k) (width height : Nat)
    (p : P) (q : Q) :
    (E.openIn h width height p).1 = (E'.openIn k width height q).1 ∧
      Host.Alike I (E.openIn h width height p).2 (E'.openIn k width height q).2 := by
  obtain ⟨hanswer, hkept⟩ := hE.openSession h.state halike.lawful width height p q
  simp only [openIn, ← halike.state_eq, ← halike.opened_eq, ← hanswer]
  cases hreply : E.openSession h.state width height p with
  | mk reply state =>
    rw [hreply] at hkept
    cases reply with
    | error e =>
      have hnext : Host.Alike I { h with state } { k with state } :=
        ⟨hkept, rfl, halike.opened_eq, halike.events⟩
      exact ⟨rfl, by simpa only [← halike.opened_eq] using hnext.record (.opened none ..)⟩
    | ok =>
      have hnext : Host.Alike I { h with state, opened := h.opened + 1 }
          { k with state, opened := h.opened + 1 } := ⟨hkept, rfl, rfl, halike.events⟩
      exact ⟨rfl, hnext.record (.opened (some (h.opened + 1)) ..)⟩

/-- Asking for memory is the same with either library. -/
theorem alike_allocateIn (hE : AgreeOn I E E') (halike : Host.Alike I h k) (bytes : Nat) :
    (E.allocateIn h bytes).1 = (E'.allocateIn k bytes).1 ∧
      Host.Alike I (E.allocateIn h bytes).2 (E'.allocateIn k bytes).2 := by
  obtain ⟨hanswer, hkept⟩ := hE.allocate h.state halike.lawful bytes
  simp only [allocateIn, ← halike.state_eq, ← hanswer]
  exact ⟨trivial, hkept, rfl, halike.opened_eq, halike.events⟩

/-- Encoding pictures of one size is the same with either library. -/
theorem alike_encodeIn (hE : AgreeOn I E E') (halike : Host.Alike I h k) (session : SessionId)
    {p q : Picture} (hw : p.width = q.width) (hh : p.height = q.height)
    (hlength : p.data.size = q.data.size) :
    (E.encodeIn h session p).1 = (E'.encodeIn k session q).1 ∧
      Host.Alike I (E.encodeIn h session p).2 (E'.encodeIn k session q).2 := by
  obtain ⟨hanswer, hkept⟩ := hE.encode h.state halike.lawful session p q hw hh
  have hasked := halike.record (.encoded session p.width p.height p.layout q.layout p.data.size)
  simp only [encodeIn, Host.record, ← halike.state_eq, ← hanswer]
  refine ⟨trivial, hkept, rfl, halike.opened_eq, ?_⟩
  rw [← hw, ← hh, ← hlength]
  exact hasked.events

end Engine

namespace Slot

variable {s t : Slot}

/-- The contexts of slots alike: none at all, or two that differ in pixels only. -/
theorem Alike.context_cases (halike : Alike s t) :
    (s.context = none ∧ t.context = none) ∨
      ∃ c d, s.context = some c ∧ t.context = some d ∧ c.session = d.session ∧
        c.scratch.size = d.scratch.size := by
  unfold context
  rw [← halike.session_eq]
  cases s.session with
  | none => exact .inl ⟨rfl, rfl⟩
  | some session => exact .inr ⟨_, _, rfl, rfl, rfl, halike.size_scratch_eq⟩

/-- Slots alike are both live or both not. -/
theorem Alike.isLive_eq (halike : Alike s t) : s.isLive = t.isLive :=
  congrArg Option.isSome halike.session_eq

/-- Slots alike fit the same sizes. -/
theorem Alike.fits_eq (halike : Alike s t) (width height : Int32) :
    s.fits width height = t.fits width height := by
  rw [fits, fits, halike.isLive_eq, halike.width_eq, halike.height_eq]

/-- Slots alike stay so if both are emptied. -/
theorem Alike.emptied (halike : Alike s t) : Alike s.emptied t.emptied :=
  ⟨halike.width_eq, halike.height_eq, rfl, rfl⟩

/-- A slot is like itself. -/
theorem Alike.refl (s : Slot) : Alike s s := ⟨rfl, rfl, rfl, rfl⟩

end Slot

namespace Script

/-- Whether a scripted answer to a picture does not depend on it, and is not empty output. -/
def AnswersBlindly : EncodeAnswer → Prop
  | .layers ls => 0 < (CodedOutput.coded ls).length
  | .digest | .planes => False
  | .skip | .fail _ | .crash => True

/-- A script none of whose answers depends on pixels or is empty output. -/
def IsBlind (s : Script) : Prop := (∀ a ∈ s.encodes, AnswersBlindly a) ∧ AnswersBlindly s.rest

/-- Blind answers are the same for all pictures, and their output has at least one byte. -/
theorem reply_of_answersBlindly {a : EncodeAnswer} (ha : AnswersBlindly a) (p q : Picture) :
    a.reply p = a.reply q ∧
      ∀ layers, a.reply p = .output (.coded layers) → 0 < (CodedOutput.coded layers).length := by
  cases a with
  | layers ls =>
    refine ⟨rfl, fun layers heq => ?_⟩
    cases heq
    exact ha
  | digest => exact ha.elim
  | planes => exact ha.elim
  | skip => exact ⟨rfl, nofun⟩
  | fail text => exact ⟨rfl, nofun⟩
  | crash => exact ⟨rfl, nofun⟩

/-- An answer to opening a session leaves the answers to pictures as they are. -/
theorem IsBlind.answerOpen {s : Script} (hs : s.IsBlind) : s.answerOpen.2.IsBlind := by
  unfold Script.answerOpen
  split <;> exact hs

/-- A blind script gives a blind answer and stays blind. -/
theorem IsBlind.answerEncode {s : Script} (hs : s.IsBlind) (p q : Picture) :
    s.answerEncode p = s.answerEncode q ∧ (s.answerEncode p).2.IsBlind ∧
      ∀ layers, (s.answerEncode p).1 = .output (.coded layers) →
        0 < (CodedOutput.coded layers).length := by
  obtain ⟨hencodes, hrest⟩ := id hs
  unfold Script.answerEncode
  cases hlist : s.encodes with
  | nil =>
    obtain ⟨hreply, hpos⟩ := reply_of_answersBlindly hrest p q
    exact ⟨by simp only [hreply], hs, hpos⟩
  | cons a encodes =>
    rw [hlist] at hencodes
    obtain ⟨hreply, hpos⟩ := reply_of_answersBlindly (hencodes a List.mem_cons_self) p q
    exact ⟨by simp only [hreply], ⟨fun b hb => hencodes b (List.mem_cons_of_mem a hb), hrest⟩, hpos⟩

/-- A blind script answers backends of all encoders alike. -/
theorem agreeOn_engine (P Q : Type) :
    (Script.engine P).AgreeOn IsBlind (Script.engine Q) where
  openSession _ hs _ _ _ _ := ⟨rfl, hs.answerOpen⟩
  encode _ hs _ p q _ _ := ⟨(hs.answerEncode p q).1, (hs.answerEncode p q).2.1⟩
  allocate _ hs _ := ⟨rfl, hs⟩
  output_pos _ hs _ p := (hs.answerEncode p p).2.2

end Script

namespace Pool

variable {I : σ → Prop} {E : Engine P σ} {E' : Engine Q σ} {h : Host P σ} {k : Host Q σ}

/-- Closing the contexts of slots alike keeps all alike. -/
theorem alike_destroy (halike : Host.Alike I h k) {s t : Slot} (hslot : s.Alike t) :
    Host.Alike I (destroy h s).1 (destroy k t).1 := by
  unfold destroy
  rw [← hslot.session_eq]
  cases s.session with
  | none => exact halike
  | some session => exact halike.close session

/-- Opening a context is the same with either library. -/
theorem alike_openContext (hE : E.AgreeOn I E') (halike : Host.Alike I h k)
    (width height : Int32) (p : P) (q : Q) :
    (openContext E h width height p).1 = (openContext E' k width height q).1 ∧
      Host.Alike I (openContext E h width height p).2 (openContext E' k width height q).2 := by
  obtain ⟨hopen, hopened⟩ :=
    Engine.alike_openIn hE halike (paddedExtent width) (paddedExtent height) p q
  unfold openContext
  revert hopen hopened
  generalize E.openIn h (paddedExtent width) (paddedExtent height) p = out
  generalize E'.openIn k (paddedExtent width) (paddedExtent height) q = out'
  obtain ⟨reply, host⟩ := out
  obtain ⟨reply', host'⟩ := out'
  rintro (rfl : reply = reply') hopened
  cases reply with
  | error e => exact ⟨rfl, hopened⟩
  | ok session =>
    obtain ⟨halloc, hgranted⟩ := Engine.alike_allocateIn hE hopened (scratchBytes width height)
    simp only
    revert halloc hgranted
    generalize E.allocateIn host (scratchBytes width height) = out
    generalize E'.allocateIn host' (scratchBytes width height) = out'
    obtain ⟨granted, host⟩ := out
    obtain ⟨granted', host'⟩ := out'
    rintro (rfl : granted = granted') hgranted
    cases granted with
    | true => exact ⟨rfl, hgranted⟩
    | false => exact ⟨rfl, hgranted.close session⟩

/-- Preparing slots alike is the same with either library. -/
theorem alike_prepareSlot (hE : E.AgreeOn I E') (halike : Host.Alike I h k) {s t : Slot}
    (hslot : s.Alike t) (width height : Int32) (p : P) (q : Q) :
    let out := prepareSlot E h s width height p
    let out' := prepareSlot E' k t width height q
    out.1 = out'.1 ∧ Host.Alike I out.2.1 out'.2.1 ∧ out.2.2.Alike out'.2.2 := by
  have hdestroyed := alike_destroy halike hslot
  obtain ⟨hopen, hopened⟩ := alike_openContext hE hdestroyed width height p q
  unfold prepareSlot
  simp only [← hslot.fits_eq, ← hslot.isLive_eq]
  by_cases hfits : s.fits width height
  · simp only [if_pos hfits]
    exact ⟨trivial, halike, hslot⟩
  · simp only [if_neg hfits, destroy_snd]
    by_cases hsize : width > 0 ∧ height > 0
    · simp only [if_pos hsize]
      revert hopen hopened
      generalize openContext E (destroy h s).1 width height p = out
      generalize openContext E' (destroy k t).1 width height q = out'
      obtain ⟨reply, host⟩ := out
      obtain ⟨reply', host'⟩ := out'
      rintro (rfl : reply = reply') hopened
      cases reply with
      | error e => exact ⟨rfl, hopened, hslot.emptied⟩
      | ok c => exact ⟨rfl, hopened, .refl _⟩
    · simp only [if_neg hsize]
      exact ⟨trivial, hdestroyed, rfl, rfl, rfl, rfl⟩

/-- Pools whose slots are alike, number by number. -/
def Alike (p q : Pool) : Prop := ∀ i : Fin poolCapacity, (p.get i).Alike (q.get i)

/-- The slots of pools alike are in the same condition. -/
theorem Alike.condition {p q : Pool} (halike : p.Alike q) (i : Fin poolCapacity) :
    (p.get i).session.isSome = (q.get i).session.isSome ∧
      ((p.get i).width = (q.get i).width ∧ (p.get i).height = (q.get i).height) ∧
      (p.get i).scratch.size = (q.get i).scratch.size :=
  ⟨(halike i).isLive_eq, ⟨(halike i).width_eq, (halike i).height_eq⟩, (halike i).size_scratch_eq⟩

/-- Pools stay alike if a slot of both is replaced by slots alike. -/
theorem Alike.setSlot {p q : Pool} (halike : p.Alike q) (channel : UInt32) {s t : Slot}
    (hslot : s.Alike t) : (p.setSlot channel s).Alike (q.setSlot channel t) := by
  intro i
  by_cases hi : slotIndex channel = i
  · subst hi
    rw [get_setSlot_self, get_setSlot_self]
    exact hslot
  · rw [get_setSlot_of_ne hi, get_setSlot_of_ne hi]
    exact halike i

/-- Pools stay alike if the scratch pictures of one slot are replaced by others of one length. -/
theorem Alike.setScratch {p q : Pool} (halike : p.Alike q) (channel : UInt32)
    {scratch scratch' : ByteArray} (hsize : scratch.size = scratch'.size) :
    (p.setScratch channel scratch).Alike (q.setScratch channel scratch') := by
  have hslot : (p.slot channel).Alike (q.slot channel) := halike (slotIndex channel)
  simp only [Pool.setScratch, ← hslot.isLive_eq]
  split
  · exact halike.setSlot channel ⟨hslot.width_eq, hslot.height_eq, hslot.session_eq, hsize⟩
  · exact halike

end Pool

namespace H264Backend

/-- The calls of a run one after the other, each with its reply, its destination and the state
it leaves. -/
def trace (B : H264Backend P σ) (s : H264State P σ) :
    List EncodeCall → List (EncodeReply × ByteArray × H264State P σ)
  | [] => []
  | c :: cs =>
    let out := B.encode s c.request c.dest
    out :: trace B out.2.2 cs

/-- Two states a caller cannot tell apart. -/
structure Alike (I : σ → Prop) (s : H264State P σ) (t : H264State Q σ) : Prop where
  host : Host.Alike I s.host t.host
  pool : s.pool.Alike t.pool

/-- One call on either of two backends, to their callers the same. -/
structure SameCall (out : EncodeReply × ByteArray × H264State P σ)
    (out' : EncodeReply × ByteArray × H264State Q σ) : Prop where
  reply : out.1 = out'.1
  /-- What a successful call says it has stored is the same. -/
  stored : ∀ outcome, out.1 = .done outcome →
    (Bytes.toList out.2.1).take outcome.bytesWritten =
      (Bytes.toList out'.2.1).take outcome.bytesWritten
  /-- All that the libraries were asked for, up to this call. -/
  asked : List.Forall₂ EngineEvent.Alike out.2.2.host.events out'.2.2.host.events
  slots : ∀ i : Fin poolCapacity,
    let s := out.2.2.pool.get i
    let t := out'.2.2.pool.get i
    s.session.isSome = t.session.isSome ∧ (s.width = t.width ∧ s.height = t.height) ∧
      s.scratch.size = t.scratch.size

/-- The same request into destinations of one size. -/
def EncodeCall.SameRequest (c d : EncodeCall) : Prop :=
  c.request = d.request ∧ c.dest.size = d.dest.size

variable {I : σ → Prop} {B : H264Backend P σ} {B' : H264Backend Q σ} {s : H264State P σ}
  {t : H264State Q σ}

/-- What was stored of a call that failed does not matter. -/
theorem sameCall_failed (halike : Alike I s t) (reply : EncodeReply)
    (hfailed : ∀ outcome, reply ≠ .done outcome) (dest dest' : ByteArray) :
    SameCall (reply, dest, s) (reply, dest', t) :=
  ⟨rfl, fun outcome hreply => absurd hreply (hfailed outcome), halike.host.events,
    halike.pool.condition⟩

/-- A call that says it has stored the same bytes in states alike is the same. -/
theorem sameCall_done (halike : Alike I s t) {outcome : EncodeOutcome} {dest dest' : ByteArray}
    (hstored : (Bytes.toList dest).take outcome.bytesWritten =
      (Bytes.toList dest').take outcome.bytesWritten) :
    SameCall (.done outcome, dest, s) (.done outcome, dest', t) := by
  refine ⟨rfl, ?_, halike.host.events, halike.pool.condition⟩
  intro other hother
  cases hother
  exact hstored

/-- Encoding pictures of one size is the same on both backends. -/
theorem sameCall_encodePicture (hE : B.engine.AgreeOn I B'.engine) (halike : Alike I s t)
    (session : SessionId) {p q : Picture} (hw : p.width = q.width) (hh : p.height = q.height)
    (hlength : p.data.size = q.data.size) (flags : ContextFlags) {dest dest' : ByteArray}
    (hdest : dest.size = dest'.size) :
    let out := B.encodePicture s session p flags dest
    let out' := B'.encodePicture t session q flags dest'
    SameCall out out' ∧ Alike I out.2.2 out'.2.2 := by
  obtain ⟨hreply, hhost⟩ := Engine.alike_encodeIn hE halike.host session hw hh hlength
  have hpos : ∀ layers, (B.engine.encodeIn s.host session p).1 = .output (.coded layers) →
      0 < (CodedOutput.coded layers).length :=
    fun layers => hE.output_pos s.host.state halike.host.lawful session p layers
  simp only [encodePicture]
  revert hreply hhost hpos
  generalize B.engine.encodeIn s.host session p = answer
  generalize B'.engine.encodeIn t.host session q = answer'
  obtain ⟨reply, host⟩ := answer
  obtain ⟨reply', host'⟩ := answer'
  rintro (rfl : reply = reply') hhost hpos
  have hnext : Alike I { s with host } { t with host := host' } := ⟨hhost, halike.pool⟩
  cases reply with
  | crashed => exact ⟨sameCall_failed hnext .crashed (by simp) dest dest', hnext⟩
  | failed e => exact ⟨sameCall_failed hnext (.failed _) (by simp) dest dest', hnext⟩
  | output o =>
    cases o with
    | skipped => exact ⟨sameCall_failed hnext (.failed _) (by simp) dest dest', hnext⟩
    | coded layers =>
      have hstore : (store B.encoder layers dest).1 = (store B'.encoder layers dest').1 := by
        rw [store_fst _ dest (hpos layers rfl), store_fst _ dest' (hpos layers rfl), hdest]
      have hbytes : ∀ n, (store B.encoder layers dest).1 = .ok n →
          (Bytes.toList (store B.encoder layers dest).2).take n =
            (Bytes.toList (store B'.encoder layers dest').2).take n := by
        intro n hn
        rw [take_store_snd hn, take_store_snd (hstore ▸ hn)]
      simp only
      revert hstore hbytes
      generalize store B.encoder layers dest = stored
      generalize store B'.encoder layers dest' = stored'
      obtain ⟨result, dest⟩ := stored
      obtain ⟨result', dest'⟩ := stored'
      rintro (rfl : result = result') hbytes
      cases result with
      | error e => exact ⟨sameCall_failed hnext (.failed e) (by simp) dest dest', hnext⟩
      | ok n => exact ⟨sameCall_done hnext (hbytes n rfl), hnext⟩

/-- Preparing for a request is the same on both backends. -/
theorem alike_prepare (hE : B.engine.AgreeOn I B'.engine) (halike : Alike I s t)
    (r : EncodeRequest) :
    let out := B.prepare s r
    let out' := B'.prepare t r
    out.1 = out'.1 ∧ Alike I ⟨out.2.2, out.2.1⟩ ⟨out'.2.2, out'.2.1⟩ := by
  obtain ⟨hreply, hhost, hslot⟩ := Pool.alike_prepareSlot hE halike.host
    (halike.pool (slotIndex r.channelId)) r.width r.height (B.table.forEncode r.tuningClass)
    (B'.table.forEncode r.tuningClass)
  exact ⟨hreply, hhost, halike.pool.setSlot r.channelId hslot⟩

/-- An encode call is the same on both backends. -/
theorem sameCall_encode (hE : B.engine.AgreeOn I B'.engine) (halike : Alike I s t)
    (hs : s.pool.IsSound) (ht : t.pool.IsSound) (r : EncodeRequest) {dest dest' : ByteArray}
    (hdest : dest.size = dest'.size) :
    let out := B.encode s r dest
    let out' := B'.encode t r dest'
    SameCall out out' ∧ Alike I out.2.2 out'.2.2 := by
  obtain ⟨hreply, hnext⟩ := alike_prepare hE halike r
  simp only [encode_eq, encodeInForm]
  cases hvalid : r.validate with
  | error fault => exact ⟨sameCall_failed halike (.failed _) (by simp) dest dest', halike⟩
  | ok =>
    simp only
    cases hprepare : B.prepare s r with
    | mk reply rest =>
    cases hprepare' : B'.prepare t r with
    | mk reply' rest' =>
      obtain ⟨host, pool⟩ := rest
      obtain ⟨host', pool'⟩ := rest'
      rw [hprepare, hprepare'] at hreply hnext
      obtain rfl : reply = reply' := hreply
      cases reply with
      | error e => exact ⟨sameCall_failed hnext (.failed e) (by simp) dest dest', hnext⟩
      | ok flags =>
        have hidle : SameCall (.done ⟨0, flags⟩, dest, ⟨pool, host⟩)
            (.done ⟨0, flags⟩, dest', ⟨pool', host'⟩) := sameCall_done hnext rfl
        simp only [encodePrepared]
        obtain ⟨hc, hd⟩ | ⟨c, d, hc, hd, hsession, hsize⟩ :=
          (hnext.pool (slotIndex r.channelId)).context_cases
        · simp only [Pool.slot, hc, hd]
          exact ⟨hidle, hnext⟩
        · by_cases hempty : r.data.size = 0
          · simp only [Pool.slot, hc, hd, if_pos hempty]
            exact ⟨hidle, hnext⟩
          · obtain ⟨scratch, hcopy⟩ := Option.ne_none_iff_exists'.mp
              (copy_ne_none hs hvalid hempty hprepare hc)
            obtain ⟨scratch', hcopy'⟩ := Option.ne_none_iff_exists'.mp
              (copy_ne_none ht hvalid hempty hprepare' hd)
            have hlength : scratch.size = scratch'.size := by
              rw [CopyGeometry.size_of_copy hcopy, CopyGeometry.size_of_copy hcopy', hsize]
            have hcopied : Alike I ⟨pool.setScratch r.channelId scratch, host⟩
                ⟨pool'.setScratch r.channelId scratch', host'⟩ :=
              ⟨hnext.host, hnext.pool.setScratch r.channelId hlength⟩
            simp only [Pool.slot, hc, hd, if_neg hempty, hcopy, hcopy', ← hsession]
            exact sameCall_encodePicture hE hcopied c.session (p := pictureOf B.encoder r scratch)
              (q := pictureOf B'.encoder r scratch') rfl rfl hlength flags hdest

/-- Two backends over libraries that answer alike are the same, call by call, on the same requests
into destinations of the same sizes. -/
theorem sameCall_trace (B : H264Backend P σ) (B' : H264Backend Q σ)
    (hE : B.engine.AgreeOn I B'.engine) {state : σ} (hstate : I state) {cs ds : List EncodeCall}
    (hcalls : List.Forall₂ EncodeCall.SameRequest cs ds) :
    List.Forall₂ SameCall (B.trace (fresh state) cs) (B'.trace (fresh state) ds) := by
  have hrun : ∀ {s : H264State P σ} {t : H264State Q σ}, Alike I s t → s.pool.IsSound →
      t.pool.IsSound → List.Forall₂ SameCall (B.trace s cs) (B'.trace t ds) := by
    induction hcalls with
    | nil => exact fun _ _ _ => .nil
    | @cons c d cs ds hcall hcalls ih =>
      intro s t halike hs ht
      obtain ⟨hrequest, hdest⟩ := hcall
      obtain ⟨hsame, hnext⟩ := sameCall_encode hE halike hs ht c.request hdest
      rw [trace, trace, ← hrequest]
      exact .cons hsame (ih hnext (isSound_encode hs _ _) (isSound_encode ht _ _))
  exact hrun ⟨⟨hstate, rfl, rfl, .nil⟩, fun i => .refl _⟩ Pool.isSound_empty Pool.isSound_empty

/-- Two encoders on one script: no session at first, then output that fits, output that does not
and a skipped picture. -/
theorem sameCall_trace_script :
    let output : EncodeAnswer := .layers [⟨[⟨#[1, 2, 3]⟩, ⟨#[4]⟩]⟩]
    let script : Script := ⟨[.fail "busy"], [output, output], .skip⟩
    let openH264 : H264Backend OpenH264Params Script :=
      ⟨.openH264, Script.engine _, .const .constants⟩
    let x264 : H264Backend X264Params Script := ⟨.x264, Script.engine _, .const .constants⟩
    let request : EncodeRequest :=
      ⟨0, 0, 0, 4, 4, 4, 4, .nv12, Bytes.zeros 24, [⟨0, 0, 4, 4⟩], .lan⟩
    let calls : List EncodeCall := [8, 8, 3, 8].map fun n => ⟨request, Bytes.zeros n⟩
    (openH264.trace (fresh script) calls).map Prod.fst =
        [.failed (.contextCreate (.library "busy")), .done ⟨4, ⟨true, false⟩⟩,
          .failed (.overflow 4 3), .failed .frameSkipped] ∧
      List.Forall₂ SameCall (openH264.trace (fresh script) calls)
        (x264.trace (fresh script) calls) := by
  intro output script openH264 x264 request calls
  have hscript : script.IsBlind := by
    refine ⟨fun a ha => ?_, trivial⟩
    have houtput : a = output := by simpa [script] using ha
    rw [houtput]
    exact (by decide : 0 < 4)
  refine ⟨by decide +kernel, sameCall_trace openH264 x264 (Script.agreeOn_engine _ _) hscript ?_⟩
  exact List.forall₂_same.mpr fun c _ => ⟨rfl, rfl⟩

end H264Backend

end FrameEncoder
