import FrameEncoder.Pipeline.Schedule
import FrameEncoder.Probe.SyntheticFrame

/-!
# Running a workload

The probe plays both the session, which submits frames, and the client, which acknowledges them.
Frames are submitted only while flow control allows it; otherwise the runner takes results until
it does. When all frames are submitted, the runner waits for their last results, shuts the
pipeline down and takes what is left.

The runner is a thread beside the encode thread, and each of its steps is one access to what both
share. It may be stopped early by clearing its running flag.
-/

namespace FrameEncoder.Probe

/-- Counters are shown as numbers. -/
instance counterToNat : Coe UInt32 Nat := ⟨UInt32.toNat⟩

/-- What the results taken so far add up to. The counters have 32 bits and wrap around: a command
may have any number of results, so there may be more of them than a counter can hold. -/
structure Tally where
  /-- Commands whose last result has been taken. -/
  completed : UInt32
  encoded : UInt32
  skipped : UInt32
  failed : UInt32
  /-- Results that reported a new encoder context. -/
  contextsCreated : UInt32
deriving DecidableEq, Repr

namespace Tally

/-- Nothing was taken yet. -/
def zero : Tally := ⟨0, 0, 0, 0, 0⟩

/-- Count one more result. -/
def record (t : Tally) (r : EncodeResult) : Tally :=
  let t := if r.encodeFlags.created then { t with contextsCreated := t.contextsCreated + 1 } else t
  let t := match r.status with
    | .encoded => { t with encoded := t.encoded + 1 }
    | .skipped => { t with skipped := t.skipped + 1 }
    | .failed _ => { t with failed := t.failed + 1 }
  if r.last then { t with completed := t.completed + 1 } else t

end Tally

/-- The outcome of a workload. -/
structure Report where
  submitted : UInt32
  tally : Tally
  stats : Stats
  flow : Flow
deriving DecidableEq, Repr

/-- Where the runner is. -/
inductive RunnerPlace where
  /-- About to tell flow control whether frames are acknowledged. -/
  | opening
  /-- About to start the pipeline. -/
  | launching
  /-- In the call that starts the pipeline. -/
  | starting
  /-- About to begin with a frame, or to leave the loop. -/
  | looping (index : Nat)
  /-- About to ask whether a frame may be dispatched. -/
  | gating (index : Nat)
  /-- Waiting for a result before a frame may be dispatched. -/
  | waiting (index : Nat)
  /-- In the call that submits a frame. -/
  | submitting (index : Nat)
  /-- About to compare the completed frames with the submitted ones. -/
  | finishing
  /-- Waiting for the results of submitted frames. -/
  | awaiting
  /-- In the call that shuts the pipeline down. -/
  | stopping
  /-- Taking the results that are left. -/
  | draining
  /-- About to acknowledge a frame that is complete. -/
  | acknowledging (id : UInt32) (next : RunnerPlace)
  /-- In the call that shuts the pipeline down after an error. -/
  | abandoning (error : PipelineError)
  | done (report : Except PipelineError Report)

/-- A runner with its pipeline. -/
structure Runner (β : Type) where
  config : Config
  system : System β
  /-- Cleared by whoever wants the workload to stop early, and by the runner at its end. -/
  running : Bool
  submitted : UInt32
  tally : Tally
  place : RunnerPlace

namespace Runner

variable {β : Type}

/-- A runner about to run the workload of some settings. -/
def new (config : Config) (backend : β) : Runner β where
  config
  system := .new config.pipeline backend
  running := true
  submitted := 0
  tally := .zero
  place := .opening

/-- Make a call to the pipeline and go on from a place. -/
def call (r : Runner β) (c : Call) (place : RunnerPlace) : Option (Runner β) :=
  (r.system.callStep c).map fun system => { r with system, place }

/-- The command of the frame with an index. Frame ids count from one. -/
def frameCommand (r : Runner β) (index : Nat) : Command :=
  let i := UInt32.ofNat index
  .surface (syntheticFrame r.config.workload i (i + 1))

/-- Submit the frame with an index. -/
def submit (r : Runner β) (index : Nat) : Option (Runner β) :=
  r.call (.submit (r.frameCommand index)) (.submitting index)

/-- Count a result that was taken and go on from a place, after acknowledging its frame if the
result completes one. -/
def record (r : Runner β) (result : EncodeResult) (place : RunnerPlace) : Runner β :=
  { r with
    tally := r.tally.record result
    place := match result.completedFrame with
      | some id => if r.config.workload.ackOff then place else .acknowledging id place
      | none => place }

/-- Take a result and go on from a place. -/
def take (r : Runner β) (place : RunnerPlace) : Option (Runner β) :=
  r.system.receive.map fun (result, system) => { r with system }.record result place

/-- Go on with a call to the pipeline, or leave it by its answer. -/
def throughCall (B : Backend β) (r : Runner β) (leave : Option Answer → Option (Runner β)) :
    Option (Runner β) :=
  match r.system.owner with
  | .ready answer => leave answer
  | _ => (r.system.ownerStep B).map fun system => { r with system }

/-- Give up after a call was refused; the pipeline is shut down all the same. -/
def abandon (r : Runner β) (error : PipelineError) : Option (Runner β) :=
  r.call .shutdown (.abandoning error)

/-- The report at the end. -/
def report (r : Runner β) : Report :=
  ⟨r.submitted, r.tally, r.system.stats, r.system.flow⟩

/-- The next step of the runner, unless it is done or has to wait. -/
def step (B : Backend β) (r : Runner β) : Option (Runner β) :=
  match r.place with
  | .opening =>
    some { r with
      system := r.system.useFlow (.suppress r.config.workload.ackOff)
      place := .launching }
  | .launching => r.call (.start none) .starting
  | .starting =>
    r.throughCall B fun
      | some (.refused e) => r.abandon e
      | _ => some { r with place := .looping 0 }
  | .looping index =>
    if index < r.config.workload.frames.toNat ∧ r.running then
      some { r with place := .gating index }
    else some { r with place := .finishing }
  | .gating index =>
    if r.system.flow.mayDispatch then r.submit index
    else some { r with place := .waiting index }
  | .waiting index =>
    if r.system.closed then r.submit index else r.take (.gating index)
  | .submitting index =>
    r.throughCall B fun
      | some (.refused e) => r.abandon e
      | _ => some { r with submitted := r.submitted + 1, place := .looping (index + 1) }
  | .finishing =>
    if r.tally.completed < r.submitted then some { r with place := .awaiting }
    else r.call .shutdown .stopping
  | .awaiting =>
    if r.system.closed then r.call .shutdown .stopping else r.take .finishing
  | .stopping =>
    r.throughCall B fun
      | some (.refused e) => r.abandon e
      | _ => some { r with place := .draining }
  | .draining =>
    match r.take .draining with
    | some r => some r
    | none => some { r with running := false, place := .done (.ok r.report) }
  | .acknowledging id next =>
    some { r with system := r.system.useFlow (.acknowledged id), place := next }
  | .abandoning error => r.throughCall B fun _ => some { r with place := .done (.error error) }
  | .done _ => none

/-- One step of the runner or of the encode thread beside it. -/
inductive Step (B : Backend β) : Runner β → Runner β → Prop
  | runner {r t : Runner β} : r.step B = some t → Step B r t
  | worker {r : Runner β} {s : System β} :
      r.system.workerStep B = some s → Step B r { r with system := s }

/-- One step, or an early stop from outside. -/
inductive StoppableStep (B : Backend β) : Runner β → Runner β → Prop
  | step {r t : Runner β} : Step B r t → StoppableStep B r t
  | halt {r : Runner β} : StoppableStep B r { r with running := false }

/-- Run the runner alone until it is done or has to wait, for at most so many steps. -/
def runAhead (B : Backend β) : (steps : Nat) → Runner β → Runner β
  | 0, r => r
  | steps + 1, r =>
    match r.step B with
    | some t => runAhead B steps t
    | none => r

/-- More steps than the runner can take alone: a handful for every frame still to submit, three for
every result to take, and those of the beginning and the end. -/
def stepsAhead (r : Runner β) : Nat :=
  8 * (r.config.workload.frames.toNat - r.submitted.toNat) + 3 * r.system.outbound.length + 32

/-- Run the runner and the encode thread in turn, each until it has to wait, for so many turns. -/
def runTurns (B : Backend β) : (turns : Nat) → Runner β → Runner β
  | 0, r => r
  | turns + 1, r =>
    let r := r.runAhead B r.stepsAhead
    match r.place with
    | .done _ => r
    | _ => runTurns B turns { r with system := r.system.settle B }

/-- Run a workload to its end. The runner has to wait at most once for every frame and once at the
end; one that waits more often waits forever. -/
def run (B : Backend β) (config : Config) (backend : β) : Runner β :=
  (new config backend).runTurns B (config.workload.frames.toNat + 8)

end Runner

end FrameEncoder.Probe
