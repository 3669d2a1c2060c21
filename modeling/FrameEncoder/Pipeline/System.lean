import FrameEncoder.Pipeline.Publication
import FrameEncoder.Pipeline.Stats

/-!
# The pipeline as a system of threads

An owner, an encode thread and a consumer share a stop flag, a lifecycle phase, totals, frame
counters and two queues. Each step below is one access to what they share, so that every order in
which the threads may run is an order of these steps.

The owner's calls start, submit and shut down are sequences of steps. The encode thread looks at
the stop flag, waits for a message, looks at the flag again, deals with a command and then lets
its effects be seen one by one. A crash of the backend ends the encode thread. A thread that has
ended has released its backend and drops what is still queued for it.
-/

namespace FrameEncoder

/-- The lifecycle of a pipeline. -/
inductive Phase where
  | idle
  | running
  | draining
  | terminated
deriving DecidableEq, Repr

namespace Phase

/-- The name of a phase. -/
def name : Phase → String
  | idle => "idle"
  | running => "running"
  | draining => "draining"
  | terminated => "terminated"

/-- The place of a phase in the lifecycle. -/
def rank : Phase → Nat
  | idle => 0
  | running => 1
  | draining => 2
  | terminated => 3

end Phase

/-- A message to the encode thread. -/
inductive Message where
  | command (seq : Nat) (command : Command)
  /-- Nothing but a reason to look at the stop flag. -/
  | wake
deriving DecidableEq

/-- Where the encode thread is. -/
inductive Worker where
  /-- It has not been started; the owner holds what it will need. -/
  | held
  /-- About to look at the stop flag. -/
  | looping
  /-- Waiting for a message. -/
  | receiving
  /-- About to look at the stop flag again, with a message in hand. -/
  | rechecking (message : Message)
  /-- About to count a command. -/
  | counting (seq : Nat) (command : Command)
  /-- About to deal with a command. -/
  | encoding (seq : Nat) (command : Command)
  /-- About to let effects be seen. -/
  | publishing (effects : List Effect)
  /-- It has ended, or was never started and is gone. -/
  | gone (crashed : Bool)
deriving DecidableEq

namespace Worker

/-- Whether the encode thread has ended. -/
def isGone : Worker → Bool
  | gone _ => true
  | _ => false

/-- How far the encode thread is from waiting for a message again. -/
def rank : Worker → Nat
  | held | gone _ => 0
  | receiving => 1
  | looping => 2
  | publishing _ => 3
  | encoding _ _ => 4
  | counting _ _ => 5
  | rechecking _ => 6

/-- The number of effects still to be seen. -/
def pending : Worker → Nat
  | publishing effects => effects.length
  | _ => 0

end Worker

/-- A call of the owner. -/
inductive Call where
  /-- Start the encode thread; the system may refuse a thread, for a reason. -/
  | start (refusal : Option String)
  | submit (command : Command)
  | shutdown
deriving DecidableEq

/-- What a call of the owner returned. -/
inductive Answer where
  | started
  | submitted (seq : Nat)
  | stopped
  | refused (error : PipelineError)
deriving DecidableEq

/-- Where the owner is. -/
inductive Owner where
  /-- In no call; with the answer of the last one. -/
  | ready (answer : Option Answer)
  /-- Starting: about to ask the system for a thread. -/
  | spawning (refusal : Option String)
  /-- Submitting: about to take a number. -/
  | numbering (command : Command)
  /-- Submitting: about to mark the frame as generated. -/
  | marking (seq : Nat) (command : Command)
  /-- Submitting: about to queue the command. -/
  | queueing (seq : Nat) (command : Command)
  /-- Shutting down: the stop flag is set; about to let go of a thread that never started. -/
  | releasing
  /-- Shutting down: about to wake the encode thread. -/
  | waking
  /-- Shutting down: waiting for the encode thread to end. -/
  | joining
deriving DecidableEq

/-- A pipeline with its threads, over a backend with state `β`. -/
structure System (β : Type) where
  config : PipelineConfig
  stop : Bool
  phase : Phase
  stats : Stats
  flow : Flow
  nextSeq : Nat
  inbound : List Message
  outbound : List EncodeResult
  /-- Whether the consumer still has its end of the outbound queue. -/
  receiver : Bool
  /-- Whether there is a thread that has not been joined. -/
  thread : Bool
  worker : Worker
  owner : Owner
  dest : ByteArray
  backend : β

namespace System

variable {β : Type}

/-- A pipeline that was just made. -/
def new (config : PipelineConfig) (backend : β) : System β where
  config
  stop := false
  phase := .idle
  stats := .zero
  flow := .new config.maxFramesInFlight
  nextSeq := 1
  inbound := []
  outbound := []
  receiver := true
  thread := false
  worker := .held
  owner := .ready none
  dest := .empty
  backend

/-- Let one effect be seen. A result for a receiver that is gone is lost. -/
def applyEffect (s : System β) : Effect → System β
  | .countReinit => { s with stats.reinits := s.stats.reinits + 1 }
  | .countSkipped => { s with stats.skipped := s.stats.skipped + 1 }
  | .countFailed => { s with stats.failed := s.stats.failed + 1 }
  | .countResult payload =>
    { s with stats.results := s.stats.results + 1, stats.bytes := s.stats.bytes + payload }
  | .markSent id => { s with flow := s.flow.frameSent id }
  | .send r => { s with outbound := if s.receiver then s.outbound ++ [r] else s.outbound }

/-- End the encode thread: its backend is released and its queue dropped. -/
def endWorker (B : Backend β) (s : System β) (crashed : Bool) : System β :=
  { s with worker := .gone crashed, inbound := [], backend := B.release s.backend }

/-- The next step of the encode thread, if it is not waiting, gone or not yet started. -/
def workerStep (B : Backend β) (s : System β) : Option (System β) :=
  match s.worker with
  | .held | .gone _ => none
  | .looping => some (if s.stop then s.endWorker B false else { s with worker := .receiving })
  | .receiving =>
    match s.inbound with
    | [] => none
    | m :: inbound => some { s with inbound, worker := .rechecking m }
  | .rechecking m =>
    some (if s.stop then s.endWorker B false else
      match m with
      | .command seq c => { s with worker := .counting seq c }
      | .wake => { s with worker := .looping })
  | .counting seq c =>
    some { s with stats.commands := s.stats.commands + 1, worker := .encoding seq c }
  | .encoding seq c =>
    let p := processCommand B s.config s.backend s.dest seq c
    let s := { s with dest := p.dest, backend := p.backend }
    some (match p.effects with
      | some effects => { s with worker := .publishing effects }
      | none => s.endWorker B true)
  | .publishing [] => some { s with worker := .looping }
  | .publishing (e :: effects) => some { s.applyEffect e with worker := .publishing effects }

/-- The answer of a call that is over. -/
def answer (s : System β) (a : Answer) : System β := { s with owner := .ready (some a) }

/-- The first step of a call, if the owner is in no other. -/
def callStep (s : System β) (c : Call) : Option (System β) :=
  match s.owner with
  | .ready _ => some (match c with
    | .start refusal =>
      if s.worker = .held then { s with phase := .running, owner := .spawning refusal }
      else if s.phase = .terminated then s.answer (.refused .shutDown)
      else s.answer (.refused .alreadyStarted)
    | .submit command =>
      if s.stop then s.answer (.refused .shutDown) else { s with owner := .numbering command }
    | .shutdown => { s with stop := true, owner := .releasing })
  | _ => none

/-- Let go of an encode thread that was never started. -/
def dropHeld (B : Backend β) (s : System β) : System β :=
  if s.worker = .held then s.endWorker B false else s

/-- The next step of the owner's call, if there is one and it need not wait. -/
def ownerStep (B : Backend β) (s : System β) : Option (System β) :=
  match s.owner with
  | .ready _ => none
  | .spawning none =>
    some ({ s with
      worker := .looping
      thread := true
      dest := Bytes.zeros s.config.maxCompressedBytes }.answer .started)
  | .spawning (some reason) =>
    some ({ s.endWorker B false with phase := .terminated }.answer (.refused (.spawn reason)))
  | .numbering c => some { s with nextSeq := s.nextSeq + 1, owner := .marking s.nextSeq c }
  | .marking seq c =>
    some { s with
      flow := match c.frameId with
        | some id => s.flow.frameGenerated id
        | none => s.flow
      owner := .queueing seq c }
  | .queueing seq c =>
    some (if s.worker.isGone then s.answer (.refused .shutDown)
      else { s with inbound := s.inbound ++ [Message.command seq c] }.answer (.submitted seq))
  | .releasing =>
    let s := s.dropHeld B
    some (if s.thread then { s with phase := .draining, owner := .waking }
      else { s with phase := .terminated }.answer .stopped)
  | .waking =>
    some { s with
      inbound := if s.worker.isGone then s.inbound else s.inbound ++ [Message.wake]
      owner := .joining }
  | .joining =>
    match s.worker with
    | .gone crashed =>
      some ({ s with thread := false, phase := .terminated }.answer
        (if crashed then .refused .threadCrashed else .stopped))
    | _ => none

/-- Take the next result. -/
def receive (s : System β) : Option (EncodeResult × System β) :=
  match s.outbound with
  | [] => none
  | r :: outbound => some (r, { s with outbound })

/-- Whether no result will come any more. -/
def closed (s : System β) : Bool := s.worker.isGone && s.outbound.isEmpty

/-- Give up the consumer's end of the outbound queue; what is in it is lost. -/
def dropReceiver (s : System β) : System β := { s with receiver := false, outbound := [] }

/-- Use the shared frame counters. -/
def useFlow (s : System β) (u : FlowUse) : System β := { s with flow := s.flow.use u }

/-- One step of any thread. Users of the frame counters may be on any thread too. -/
inductive Step (B : Backend β) : System β → System β → Prop
  | worker {s t : System β} : s.workerStep B = some t → Step B s t
  | call {s t : System β} (c : Call) : s.callStep c = some t → Step B s t
  | owner {s t : System β} : s.ownerStep B = some t → Step B s t
  | receive {s t : System β} {r : EncodeResult} : s.receive = some (r, t) → Step B s t
  | dropReceiver {s : System β} : Step B s s.dropReceiver
  | flow {s : System β} (u : FlowUse) : Step B s (s.useFlow u)

end System

end FrameEncoder
