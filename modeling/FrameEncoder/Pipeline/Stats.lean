/-!
# Pipeline statistics

The running totals of one pipeline.
-/

namespace FrameEncoder

/-- The totals of a pipeline. -/
structure Stats where
  /-- Commands taken off the queue. -/
  commands : Nat
  results : Nat
  /-- Payload bytes, padding excluded. -/
  bytes : Nat
  skipped : Nat
  failed : Nat
  /-- Encoder contexts created. -/
  reinits : Nat
deriving DecidableEq, Repr

/-- The totals of a pipeline that did nothing yet. -/
def Stats.zero : Stats := ⟨0, 0, 0, 0, 0, 0⟩

instance : Inhabited Stats := ⟨.zero⟩

end FrameEncoder
