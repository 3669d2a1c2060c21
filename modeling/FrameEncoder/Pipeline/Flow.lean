/-!
# Flow control

Counters of the frame ids that were generated, sent and acknowledged. The pipeline never waits on
them; a session asks them whether it may dispatch another frame.
-/

namespace FrameEncoder

/-- The frame counters of one pipeline. -/
structure Flow where
  acknowledged : UInt32
  generated : UInt32
  sent : UInt32
  inFlight : UInt32
  /-- The client does not acknowledge frames; every sent frame counts as acknowledged. -/
  suppressed : Bool
  maxInFlight : UInt32
deriving DecidableEq, Repr

namespace Flow

/-- Counters with a ceiling on the frames in flight. -/
def new (maxInFlight : UInt32) : Flow := ⟨0, 0, 0, 0, false, maxInFlight⟩

/-- The ceiling of a pipeline that sets none. -/
def defaultMaxInFlight : UInt32 := 2

instance : Inhabited Flow := ⟨new defaultMaxInFlight⟩

/-- Count the frames in flight anew. -/
def recompute (f : Flow) : Flow :=
  { f with inFlight := if f.suppressed then 0 else f.sent - f.acknowledged }

/-- A frame entered the pipeline; an older id than the last one is ignored. -/
def frameGenerated (f : Flow) (id : UInt32) : Flow :=
  if id > f.generated then { f with generated := id } else f

/-- The last result of a frame left the encode thread. An id that was never generated counts as
the last generated one, and an older id than the last one is ignored. -/
def frameSent (f : Flow) (id : UInt32) : Flow :=
  let id := min id f.generated
  if id > f.sent then
    { f with sent := id, acknowledged := if f.suppressed then id else f.acknowledged }.recompute
  else f

/-- The client acknowledged a frame. An id that was never sent counts as the last sent one, and
an older id than the last one is ignored. -/
def frameAcknowledged (f : Flow) (id : UInt32) : Flow :=
  let id := min id f.sent
  if id > f.acknowledged then { f with acknowledged := id }.recompute else f

/-- Set whether the client acknowledges frames. -/
def setSuppressed (f : Flow) (suppressed : Bool) : Flow :=
  { f with
    suppressed
    acknowledged := if suppressed then f.sent else f.acknowledged }.recompute

/-- Whether another frame may be dispatched. -/
def mayDispatch (f : Flow) : Bool := f.suppressed || f.inFlight < f.maxInFlight

end Flow

/-- One use of the frame counters. -/
inductive FlowUse where
  | generated (id : UInt32)
  | sent (id : UInt32)
  | acknowledged (id : UInt32)
  | suppress (suppressed : Bool)
deriving DecidableEq, Repr

/-- The counters after a use. -/
def Flow.use (f : Flow) : FlowUse → Flow
  | .generated id => f.frameGenerated id
  | .sent id => f.frameSent id
  | .acknowledged id => f.frameAcknowledged id
  | .suppress suppressed => f.setSuppressed suppressed

end FrameEncoder
