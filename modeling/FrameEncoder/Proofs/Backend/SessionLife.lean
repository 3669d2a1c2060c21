import FrameEncoder.Proofs.Backend.Damage
import FrameEncoder.Proofs.Pool.SessionLog

/-!
# The life of sessions

Slots are made ready, encoded from and cleared in any order, whatever the library answers and
whatever memory there is. Between calls the open sessions are those of the slots, at most one for
each. A slot's session is closed before another is opened for it, a session without memory for its
scratch picture is closed by the call that opened it, and a picture goes to the session of its
channel's slot. Once the slots are dropped, every session that was opened has been closed once.
-/

namespace FrameEncoder

variable {P σ : Type}

/-- A use of the slots of an encoder. -/
inductive SlotCall (P : Type) where
  | prepare (channel : UInt32) (width height : Int32) (params : P)
  | encode (request : EncodeRequest) (dest : ByteArray)
  | clear

/-- The channel whose slot is used; clearing uses all slots. -/
def SlotCall.channel? : SlotCall P → Option UInt32
  | prepare channel _ _ _ => some channel
  | encode request _ => some request.channelId
  | clear => none

/-- The error a reply tells of, if it does. -/
def EncodeReply.error? : EncodeReply → Option BackendError
  | failed error => some error
  | _ => none

/-- A reply tells of an error exactly if the call failed with it. -/
theorem EncodeReply.error?_eq_some_iff {reply : EncodeReply} {e : BackendError} :
    reply.error? = some e ↔ reply = .failed e := by
  cases reply <;> simp [error?]

namespace H264Backend

/-- A use of the slots, with the error it ends in, if it does. -/
def perform (B : H264Backend P σ) (s : H264State P σ) :
    SlotCall P → Option BackendError × H264State P σ
  | .prepare channel width height params =>
    let out := Pool.prepare B.engine s.host s.pool channel width height params
    (match out.1 with
      | .ok _ => none
      | .error e => some e, ⟨out.2.2, out.2.1⟩)
  | .encode request dest =>
    let out := B.encode s request dest
    (out.1.error?, out.2.2)
  | .clear => (none, release s)

/-- The state after uses of the slots, one after the other. -/
def performAll (B : H264Backend P σ) (s : H264State P σ) (calls : List (SlotCall P)) :
    H264State P σ :=
  calls.foldl (fun s call => (B.perform s call).2) s

/-- What a call for a channel does: it asks for what makes the channel's slot ready, and may then
use the slot's session. -/
structure Serves (params : P) (s t : H264State P σ) (channel : UInt32)
    (error : Option BackendError) (result : Except BackendError ContextFlags)
    (first used : List (EngineEvent P)) : Prop where
  events_eq : t.host.events = s.host.events ++ (first ++ used)
  asks : Pool.Asks params s.host.opened (s.pool.slot channel).session result t.host.opened
    (t.pool.slot channel).session first
  uses : ∀ e ∈ used, ∃ session width height layout length,
    (t.pool.slot channel).session = some session ∧
      e = .encoded session width height layout length
  others : ∀ i, slotIndex channel ≠ i → t.pool.get i = s.pool.get i
  withdrawn : ∀ bytes, error = some (.scratchAlloc bytes) →
    result = .error (.scratchAlloc bytes) ∧ used = []

variable {B : H264Backend P σ}

/-- Encoding a picture fails for no want of memory. -/
theorem encodePicture_ne_scratchAlloc (s : H264State P σ) (session : SessionId)
    (picture : Picture) (flags : ContextFlags) (dest : ByteArray) (bytes : Nat) :
    (B.encodePicture s session picture flags dest).1 ≠ .failed (.scratchAlloc bytes) := by
  unfold encodePicture
  split
  · exact nofun
  · exact nofun
  · exact nofun
  · split
    · exact nofun
    · next hstore =>
      unfold store at hstore
      grind

/-- Making the slot of a channel ready serves the channel. -/
theorem serves_of_prepared {s : H264State P σ} {channel : UInt32} {width height : Int32}
    {params : P} {result : Except BackendError ContextFlags} {host : Host P σ} {slot : Slot}
    (hprepared : Pool.Prepared B.engine s.host (s.pool.slot channel) width height params
      (result, host, slot))
    (error : Option BackendError)
    (herror : ∀ bytes, error = some (.scratchAlloc bytes) →
      result = .error (.scratchAlloc bytes)) :
    ∃ first, Serves params s ⟨s.pool.setSlot channel slot, host⟩ channel error result first [] := by
  obtain ⟨first, hevents, hasks⟩ := hprepared.asks
  refine ⟨first, by rw [List.append_nil]; exact hevents, ?_, nofun,
    fun i hi => Pool.get_setSlot_of_ne hi, fun bytes hbytes => ⟨herror bytes hbytes, rfl⟩⟩
  rw [Pool.slot_setSlot]
  exact hasks

/-- A preparation serves its channel. -/
theorem serves_prepare (s : H264State P σ) (channel : UInt32) (width height : Int32)
    (params : P) :
    let out := B.perform s (.prepare channel width height params)
    ∃ result first, Serves params s out.2 channel out.1 result first [] := by
  have hprepared := Pool.prepared_prepareSlot B.engine s.host (s.pool.slot channel) width height
    params
  simp only [perform, Pool.prepare]
  generalize Pool.prepareSlot B.engine s.host (s.pool.slot channel) width height params = out
    at hprepared ⊢
  obtain ⟨result, host, slot⟩ := out
  cases result with
  | ok flags => exact ⟨_, serves_of_prepared hprepared none (by simp)⟩
  | error e =>
    exact ⟨_, serves_of_prepared hprepared (some e) fun bytes hbytes => by
      rw [Option.some.inj hbytes]⟩

/-- So does the preparation for a request. -/
theorem serves_of_prepare {s : H264State P σ} {r : EncodeRequest}
    {result : Except BackendError ContextFlags} {host : Host P σ} {pool : Pool}
    (hprepare : B.prepare s r = (result, host, pool)) (error : Option BackendError)
    (herror : ∀ bytes, error = some (.scratchAlloc bytes) →
      result = .error (.scratchAlloc bytes)) :
    ∃ first, Serves (B.table.forEncode r.tuningClass) s ⟨pool, host⟩ r.channelId error result
      first [] := by
  obtain ⟨hprepared, hpool⟩ := prepared_of_prepare hprepare
  have hserves := serves_of_prepared hprepared error herror
  rwa [← hpool] at hserves

/-- An encode call serves the channel of its request. -/
theorem serves_encode (s : H264State P σ) (r : EncodeRequest) (dest : ByteArray) :
    let out := B.perform s (.encode r dest)
    ∃ result first used, Serves (B.table.forEncode r.tuningClass) s out.2 r.channelId out.1
      result first used := by
  have hothers : ∀ i, slotIndex r.channelId ≠ i →
      (B.encode s r dest).2.2.pool.get i = s.pool.get i := fun i hi => get_encode_of_ne hi dest
  have hcases := encoded_encode B s r dest
  simp only [perform]
  generalize B.encode s r dest = out at hcases hothers ⊢
  cases hcases with
  | rejected hinvalid =>
    exact ⟨.ok .none, [], [], (List.append_nil _).symm, .kept, nofun, hothers, nofun⟩
  | @unprepared hvalid e host pool hprepare =>
    obtain ⟨first, hserves⟩ := serves_of_prepare hprepare (some e) fun bytes hbytes => by
      rw [Option.some.inj hbytes]
    exact ⟨_, first, [], hserves⟩
  | idle hvalid hprepare hidle =>
    obtain ⟨first, hserves⟩ := serves_of_prepare hprepare none nofun
    exact ⟨_, first, [], hserves⟩
  | uncopied hvalid hprepare hcontext hdata hcopy =>
    obtain ⟨first, hserves⟩ := serves_of_prepare hprepare none nofun
    exact ⟨_, first, [], hserves⟩
  | @handed hvalid flags host pool hprepare c hcontext hdata scratch hcopy =>
    obtain ⟨first, hevents, hasks⟩ := (prepared_of_prepare hprepare).1.asks
    have hsession : ((pool.setScratch r.channelId scratch).slot r.channelId).session =
        some c.session :=
      (Pool.session_setScratch pool r.channelId scratch (slotIndex r.channelId)).trans
        (Slot.context_eq_some_iff.mp hcontext).1
    let picture := pictureOf B.encoder r scratch
    refine ⟨.ok flags, first,
      [.encoded c.session picture.width picture.height picture.layout picture.data.size],
      ?_, ?_, ?_, hothers,
      fun bytes hbytes => absurd (EncodeReply.error?_eq_some_iff.mp hbytes)
        (encodePicture_ne_scratchAlloc _ _ _ _ _ bytes)⟩
    · rw [pool_encodePicture, ← List.append_assoc, ← hevents]
      rfl
    · rw [pool_encodePicture, show ((pool.setScratch r.channelId scratch).slot _).session = _ from
        Pool.session_setScratch pool r.channelId scratch (slotIndex r.channelId)]
      exact hasks
    · intro e he
      rw [pool_encodePicture]
      exact ⟨_, _, _, _, _, hsession, List.mem_singleton.mp he⟩

/-- A state keeps its sessions if its log is in order and leaves those of its slots open. -/
def IsInOrder (s : H264State P σ) : Prop :=
  IsLog s.host.opened s.host.events s.pool.sessions

/-- A backend nothing was asked of has no session. -/
theorem isInOrder_fresh (state : σ) : IsInOrder (fresh state : H264State P σ) := by
  have hnone : Pool.empty.sessions = [] := by
    refine List.filterMap_eq_nil_iff.mpr fun s hs => ?_
    rw [Vector.mem_toList_iff] at hs
    rw [Vector.eq_of_mem_replicate hs]
    rfl
  rw [IsInOrder, show (fresh state : H264State P σ).pool = Pool.empty from rfl, hnone]
  exact .nil

/-- A call for a channel keeps the log in order. -/
theorem Serves.isInOrder {params : P} {s t : H264State P σ} {channel : UInt32}
    {error : Option BackendError} {result : Except BackendError ContextFlags}
    {first used : List (EngineEvent P)}
    (hserves : Serves params s t channel error result first used) (hs : IsInOrder s) :
    IsInOrder t := by
  obtain ⟨rest, hrest⟩ := s.pool.exists_sessions_setSlot channel
  have hbefore : s.pool.sessions.Perm ((s.pool.slot channel).session.toList ++ rest) := by
    have hself := hrest (s.pool.slot channel)
    rwa [Pool.setSlot_slot] at hself
  have hafter : t.pool.sessions.Perm ((t.pool.slot channel).session.toList ++ rest) := by
    have hset := hrest (t.pool.slot channel)
    rwa [← Pool.eq_setSlot hserves.others] at hset
  have hready := hserves.asks.isLog (hs.perm hbefore)
  have hused : ∀ used : List (EngineEvent P), (∀ e ∈ used, ∃ session width height layout length,
      (t.pool.slot channel).session = some session ∧
        e = .encoded session width height layout length) →
      IsLog t.host.opened (s.host.events ++ first ++ used)
        ((t.pool.slot channel).session.toList ++ rest) := by
    intro used huses
    induction used using List.reverseRecOn with
    | nil =>
      rw [List.append_nil]
      exact hready
    | append_singleton used e ih =>
      obtain ⟨session, width, height, layout, length, hsession, rfl⟩ :=
        huses e (List.mem_append_right _ (List.mem_singleton_self e))
      rw [← List.append_assoc]
      exact (ih fun e he => huses e (List.mem_append_left _ he)).use (by rw [hsession]; simp) ..
  refine IsLog.perm ?_ hafter.symm
  rw [hserves.events_eq, ← List.append_assoc]
  exact hused used hserves.uses

/-- Every use of the slots keeps the log in order. -/
theorem isInOrder_perform {s : H264State P σ} (hs : IsInOrder s) (call : SlotCall P) :
    IsInOrder (B.perform s call).2 := by
  cases call with
  | prepare channel width height params =>
    obtain ⟨result, first, hserves⟩ := serves_prepare (B := B) s channel width height params
    exact hserves.isInOrder hs
  | encode r dest =>
    obtain ⟨result, first, used, hserves⟩ := serves_encode (B := B) s r dest
    exact hserves.isInOrder hs
  | clear =>
    rw [IsInOrder, show (B.perform s .clear).2.pool.sessions = [] from
      Pool.sessions_clear s.host s.pool]
    exact Pool.isLog_clear hs

/-- The log stays in order along any uses of the slots. -/
theorem isInOrder_performAll {s : H264State P σ} (hs : IsInOrder s) (calls : List (SlotCall P)) :
    IsInOrder (B.performAll s calls) := by
  induction calls generalizing s with
  | nil => exact hs
  | cons call calls ih => exact ih (isInOrder_perform hs call)

/-- What one use of the slots keeps to in what it asks of the library. -/
structure KeepsTo (s t : H264State P σ) (call : SlotCall P) (error : Option BackendError)
    (asked : List (EngineEvent P)) : Prop where
  events_eq : t.host.events = s.host.events ++ asked
  /-- The session of a slot is closed before one is asked for in its place. -/
  closed_first : ∀ before session width height params after,
    asked = before ++ .opened session width height params :: after →
      ∃ channel, call.channel? = some channel ∧
        ∀ old, (s.pool.slot channel).session = some old → .closed old ∈ before
  /-- A session without memory for its scratch picture is closed at once. -/
  withdrawn : ∀ bytes, error = some (.scratchAlloc bytes) →
    ∃ before session width height params,
      asked = before ++ [.opened (some session) width height params, .closed session]
  /-- A picture goes to the session of the slot of its request's channel. -/
  uses : ∀ session width height layout length,
    .encoded session width height layout length ∈ asked →
      ∃ r dest, call = .encode r dest ∧ (t.pool.slot r.channelId).session = some session

/-- What begins with one event and has another later on has the first before the other. -/
theorem mem_of_cons_eq_append {e e' : EngineEvent P} {rest before after : List (EngineEvent P)}
    (h : e :: rest = before ++ e' :: after) (hne : e ≠ e') : e ∈ before := by
  cases before with
  | nil => exact absurd (List.cons.inj h).1 hne
  | cons first before => exact (List.cons.inj h).1 ▸ List.mem_cons_self

/-- A call for a channel keeps to all this, if only an encode call uses a session. -/
theorem Serves.keepsTo {params : P} {s t : H264State P σ} {channel : UInt32}
    {error : Option BackendError} {result : Except BackendError ContextFlags}
    {first used : List (EngineEvent P)}
    (hserves : Serves params s t channel error result first used) {call : SlotCall P}
    (hchannel : call.channel? = some channel)
    (hcall : used ≠ [] → ∃ r dest, call = .encode r dest) :
    KeepsTo s t call error (first ++ used) := by
  refine ⟨hserves.events_eq, ?_, ?_, ?_⟩
  · intro before session width height params after heq
    refine ⟨channel, hchannel, fun old hold => ?_⟩
    rcases hserves.asks.eq_nil_or_closing with hnil | ⟨rest, hrest⟩
    · have hmem : .opened session width height params ∈ used := by
        rw [hnil, List.nil_append] at heq
        exact heq ▸ List.mem_append_right _ List.mem_cons_self
      obtain ⟨_, _, _, _, _, -, hused⟩ := hserves.uses _ hmem
      cases hused
    · rw [hrest, hold, List.append_assoc] at heq
      exact mem_of_cons_eq_append heq nofun
  · intro bytes hbytes
    obtain ⟨hresult, hused⟩ := hserves.withdrawn bytes hbytes
    obtain ⟨before, session, width, height, hfirst⟩ :=
      (hresult ▸ hserves.asks).eq_of_scratchAlloc
    exact ⟨before, session, width, height, params, by rw [hused, List.append_nil, hfirst]⟩
  · intro session width height layout length hmem
    have hmem := (List.mem_append.mp hmem).resolve_left
      (hserves.asks.encoded_not_mem _ _ _ _ _)
    obtain ⟨r, dest, rfl⟩ := hcall (List.ne_nil_of_mem hmem)
    obtain ⟨_, _, _, _, _, hsession, heq⟩ := hserves.uses _ hmem
    cases heq
    cases hchannel
    exact ⟨r, dest, rfl, hsession⟩

/-- Every use of the slots keeps to all this. -/
theorem exists_keepsTo (s : H264State P σ) (call : SlotCall P) :
    ∃ asked, KeepsTo s (B.perform s call).2 call (B.perform s call).1 asked := by
  cases call with
  | prepare channel width height params =>
    obtain ⟨result, first, hserves⟩ := serves_prepare (B := B) s channel width height params
    exact ⟨_, hserves.keepsTo rfl fun hne => absurd rfl hne⟩
  | encode r dest =>
    obtain ⟨result, first, used, hserves⟩ := serves_encode (B := B) s r dest
    exact ⟨_, hserves.keepsTo rfl fun _ => ⟨r, dest, rfl⟩⟩
  | clear =>
    have hclosed : ∀ e ∈ s.pool.slots.toList.flatMap fun slot =>
        Pool.closing (P := P) slot.session, ∃ session, e = .closed session := by
      intro e he
      obtain ⟨slot, -, hmem⟩ := List.mem_flatMap.mp he
      obtain ⟨session, -, rfl⟩ := List.mem_map.mp hmem
      exact ⟨session, rfl⟩
    refine ⟨_, (Pool.log_destroyAll s.pool.slots.toList s.host).2, ?_, nofun, ?_⟩
    · intro before session width height params after heq
      obtain ⟨_, hopened⟩ := hclosed (.opened session width height params)
        (heq ▸ List.mem_append_right _ List.mem_cons_self)
      cases hopened
    · intro session width height layout length hmem
      obtain ⟨_, hencoded⟩ := hclosed _ hmem
      cases hencoded

/-- That no session is leaked, doubled or used after it was closed, by uses of the slots. -/
structure KeepsSessions (B : H264Backend P σ) (state : σ) (calls : List (SlotCall P)) : Prop where
  /-- Between calls the log is in order and leaves the sessions of the slots open, each of one
  slot. -/
  between :
    let s := B.performAll (fresh state) calls
    ∃ live, openSessions s.host.events = some live ∧ live.Nodup ∧
      (live.length = s.pool.liveCount ∧ s.pool.liveCount ≤ poolCapacity) ∧
      ∀ session, session ∈ live ↔ ∃! i, (s.pool.get i).session = some session
  /-- Whatever the next call is. -/
  step :
    let s := B.performAll (fresh state) calls
    ∀ call, ∃ asked, KeepsTo s (B.perform s call).2 call (B.perform s call).1 asked
  /-- Once the slots are dropped, every session that was opened has been closed once, and no
  other. -/
  dropped :
    let events := (release (B.performAll (fresh state) calls)).host.events
    openSessions events = some [] ∧ (events.filterMap EngineEvent.opened?).Nodup ∧
      ∀ session, (events.filterMap EngineEvent.closed?).count session =
        if session ∈ events.filterMap EngineEvent.opened? then 1 else 0

/-- No uses of the slots leak or double a session or use it after it was closed. -/
theorem keepsSessions (B : H264Backend P σ) (state : σ) (calls : List (SlotCall P)) :
    B.KeepsSessions state calls := by
  have horder := isInOrder_performAll (B := B) (isInOrder_fresh state) calls
  constructor
  · intro s
    obtain ⟨-, live, hlive, hperm⟩ := id horder
    refine ⟨live, hlive, (count_openSessions hlive).1, ?_, fun session => ?_⟩
    · rw [hperm.length_eq]
      exact s.pool.length_sessions
    · rw [hperm.mem_iff, Pool.mem_sessions_iff]
      constructor
      · rintro ⟨i, hi⟩
        exact ⟨i, hi, fun j hj => Pool.eq_of_session horder.nodup hj hi⟩
      · rintro ⟨i, hi, -⟩
        exact ⟨i, hi⟩
  · exact exists_keepsTo _
  · intro events
    have hlog : IsLog _ events [] := Pool.isLog_clear horder
    have hnodup : (events.filterMap EngineEvent.opened?).Nodup := by
      rw [hlog.opened_eq]
      exact List.nodup_range'
    obtain ⟨-, live, hlive, hperm⟩ := id hlog
    refine ⟨hperm.eq_nil ▸ hlive, hnodup, fun session => ?_⟩
    rw [hlog.count_closed, hnodup.count]

end H264Backend

end FrameEncoder
