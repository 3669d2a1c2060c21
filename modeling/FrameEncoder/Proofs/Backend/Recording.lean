import FrameEncoder.Proofs.Backend.Calls

/-!
# Recording pictures

What a library is asked is recorded without the pixels. An engine that also keeps every picture
it is handed answers like the engine it is made from, so what it keeps is what that engine is
handed in the same run.
-/

namespace FrameEncoder

/-- The state of an engine with the pictures it was handed and their sessions, in order. -/
abbrev Recorded (σ : Type) : Type := σ × List (SessionId × Picture)

variable {P σ : Type}

/-- An engine that keeps every picture it is handed. -/
def Engine.recording (E : Engine P σ) : Engine P (Recorded σ) where
  name := E.name
  linked := E.linked
  openSession s width height params :=
    let out := E.openSession s.1 width height params
    (out.1, out.2, s.2)
  encode s session picture :=
    let out := E.encode s.1 session picture
    (out.1, out.2, s.2 ++ [(session, picture)])
  allocate s bytes :=
    let out := E.allocate s.1 bytes
    (out.1, out.2, s.2)

namespace Host

/-- A library without the pictures that were kept. -/
def plain (h : Host P (Recorded σ)) : Host P σ := ⟨h.state.1, h.opened, h.events⟩

/-- The pictures a library was handed. -/
def pictures (h : Host P (Recorded σ)) : List (SessionId × Picture) := h.state.2

end Host

namespace Engine

variable (E : Engine P σ) (h : Host P (Recorded σ))

/-- Opening a session is the same with and without recording. -/
theorem plain_openIn (width height : Nat) (params : P) :
    let out := E.recording.openIn h width height params
    E.openIn h.plain width height params = (out.1, out.2.plain) ∧
      out.2.pictures = h.pictures := by
  simp only [openIn, recording, Host.plain]
  cases hreply : E.openSession h.state.1 width height params with
  | mk reply state => cases reply <;> exact ⟨rfl, rfl⟩

/-- Encoding is the same with and without recording, which keeps the picture. -/
theorem plain_encodeIn (session : SessionId) (picture : Picture) :
    let out := E.recording.encodeIn h session picture
    E.encodeIn h.plain session picture = (out.1, out.2.plain) ∧
      out.2.pictures = h.pictures ++ [(session, picture)] :=
  ⟨rfl, rfl⟩

/-- Asking for memory is the same with and without recording. -/
theorem plain_allocateIn (bytes : Nat) :
    let out := E.recording.allocateIn h bytes
    E.allocateIn h.plain bytes = (out.1, out.2.plain) ∧ out.2.pictures = h.pictures :=
  ⟨rfl, rfl⟩

end Engine

namespace Pool

variable (E : Engine P σ) (h : Host P (Recorded σ))

/-- Closing a context is the same with and without recording. -/
theorem plain_destroy (s : Slot) :
    destroy h.plain s = ((destroy h s).1.plain, (destroy h s).2) ∧
      (destroy h s).1.pictures = h.pictures := by
  unfold destroy
  split <;> exact ⟨rfl, rfl⟩

/-- Opening a context is the same with and without recording. -/
theorem plain_openContext (width height : Int32) (params : P) :
    let out := openContext E.recording h width height params
    openContext E h.plain width height params = (out.1, out.2.plain) ∧
      out.2.pictures = h.pictures := by
  obtain ⟨hopen, hkept⟩ :=
    E.plain_openIn h (paddedExtent width) (paddedExtent height) params
  simp only [openContext, hopen]
  cases hreply : E.recording.openIn h (paddedExtent width) (paddedExtent height) params with
  | mk reply host =>
    rw [hreply] at hkept
    cases reply with
    | error e => exact ⟨rfl, hkept⟩
    | ok session =>
      obtain ⟨halloc, hkept'⟩ := E.plain_allocateIn host (scratchBytes width height)
      simp only [halloc]
      cases hgranted : E.recording.allocateIn host (scratchBytes width height) with
      | mk granted host' =>
        rw [hgranted] at hkept'
        cases granted <;> exact ⟨rfl, hkept'.trans hkept⟩

/-- Preparing a slot is the same with and without recording. -/
theorem plain_prepareSlot (s : Slot) (width height : Int32) (params : P) :
    let out := prepareSlot E.recording h s width height params
    prepareSlot E h.plain s width height params = (out.1, out.2.1.plain, out.2.2) ∧
      out.2.1.pictures = h.pictures := by
  obtain ⟨hdestroy, hkept⟩ := plain_destroy h s
  obtain ⟨hopen, hkept'⟩ := plain_openContext E (destroy h s).1 width height params
  unfold prepareSlot
  by_cases hfits : s.fits width height
  · simp only [if_pos hfits]
    exact ⟨trivial, trivial⟩
  · simp only [if_neg hfits, hdestroy]
    by_cases hsize : width > 0 ∧ height > 0
    · simp only [if_pos hsize, hopen]
      cases hreply : openContext E.recording (destroy h s).1 width height params with
      | mk reply host =>
        rw [hreply] at hkept'
        cases reply <;> exact ⟨rfl, hkept'.trans hkept⟩
    · simp only [if_neg hsize]
      exact ⟨trivial, hkept⟩

end Pool

namespace H264Backend

variable (B : H264Backend P σ) (s : H264State P (Recorded σ))

/-- The backend over an engine that keeps the pictures it is handed. -/
def recording (B : H264Backend P σ) : H264Backend P (Recorded σ) :=
  ⟨B.encoder, B.engine.recording, B.table⟩

/-- A state without the pictures that were kept. -/
def plain (s : H264State P (Recorded σ)) : H264State P σ := ⟨s.pool, s.host.plain⟩

/-- Preparing for a request is the same with and without recording. -/
theorem plain_prepare (r : EncodeRequest) :
    let out := B.recording.prepare s r
    B.prepare (plain s) r = (out.1, out.2.1.plain, out.2.2) ∧
      out.2.1.pictures = s.host.pictures := by
  obtain ⟨hprepare, hkept⟩ := Pool.plain_prepareSlot B.engine s.host (s.pool.slot r.channelId)
    r.width r.height (B.table.forEncode r.tuningClass)
  refine ⟨?_, hkept⟩
  simp only [prepare, Pool.prepare, plain, hprepare]
  rfl

/-- Encoding a picture is the same with and without recording. -/
theorem plain_encodePicture (session : SessionId) (picture : Picture) (flags : ContextFlags)
    (dest : ByteArray) :
    let out := B.recording.encodePicture s session picture flags dest
    B.encodePicture (plain s) session picture flags dest = (out.1, out.2.1, plain out.2.2) := by
  have hencode := (B.engine.plain_encodeIn s.host session picture).1
  simp only [encodePicture, plain, hencode, recording]
  cases hreply : B.engine.recording.encodeIn s.host session picture with
  | mk reply host =>
    cases reply with
    | crashed => rfl
    | failed e => rfl
    | output o =>
      cases o with
      | skipped => rfl
      | coded layers =>
        simp only
        cases hstore : store B.encoder layers dest with
        | mk stored out => cases stored <;> rfl

/-- An encode call is the same with and without recording. -/
theorem plain_encode (r : EncodeRequest) (dest : ByteArray) :
    let out := B.recording.encode s r dest
    B.encode (plain s) r dest = (out.1, out.2.1, plain out.2.2) := by
  have hprepare := (B.plain_prepare s r).1
  simp only [encode_eq, encodeInForm, hprepare]
  cases hvalid : r.validate with
  | error fault => rfl
  | ok =>
    cases hreply : B.recording.prepare s r with
    | mk reply rest =>
      obtain ⟨host, pool⟩ := rest
      cases reply with
      | error e => rfl
      | ok flags =>
        simp only [encodePrepared]
        cases hcontext : (pool.slot r.channelId).context with
        | none => rfl
        | some c =>
          simp only
          split
          · rfl
          · simp only [recording]
            cases hcopy : (geometry r).copy (layout B.encoder) r.data c.scratch r.rects with
            | none => rfl
            | some scratch =>
              exact B.plain_encodePicture ⟨pool.setScratch r.channelId scratch, host⟩ ..

end H264Backend

end FrameEncoder
