import FrameEncoder.Pipeline.System

/-!
# Running a pipeline to rest

One particular order of the pipeline's steps, for a caller who wants an answer rather than an
interleaving: the encode thread runs until it waits or ends, and a call of the owner runs until
it returns, letting the encode thread go on while it waits for its end.
-/

namespace FrameEncoder

namespace System

variable {β : Type} (B : Backend β)

/-- Letting an effect be seen touches neither the encode thread nor its queue. -/
theorem applyEffect_inbound (s : System β) (e : Effect) :
    (s.applyEffect e).inbound = s.inbound := by
  cases e <;> rfl

/-- Every step brings the encode thread nearer to waiting: it takes a message from its queue, or
moves on in dealing with one. -/
theorem workerStep_decreases {s t : System β} (h : s.workerStep B = some t) :
    Prod.Lex (· < ·) (Prod.Lex (· < ·) (· < ·))
      (t.inbound.length, t.worker.rank, t.worker.pending)
      (s.inbound.length, s.worker.rank, s.worker.pending) := by
  have hle {a b : Nat} {x y : Nat × Nat} (hab : a ≤ b)
      (hxy : Prod.Lex (· < ·) (· < ·) x y) :
      Prod.Lex (· < ·) (Prod.Lex (· < ·) (· < ·)) (a, x) (b, y) := by
    rcases Nat.lt_or_eq_of_le hab with hlt | rfl
    · exact .left _ _ hlt
    · exact .right _ hxy
  unfold workerStep at h
  split at h
  · cases h
  · cases h
  · next hw =>
    cases h
    split
    · exact hle (Nat.zero_le _) (.left _ _ (by rw [hw]; exact (by decide : 0 < 2)))
    · exact hle (Nat.le_refl _) (.left _ _ (by rw [hw]; exact (by decide : 1 < 2)))
  · split at h
    · cases h
    · next hi =>
      cases h
      exact .left _ _ (by rw [hi]; exact Nat.lt_succ_self _)
  · next m hw =>
    cases h
    split
    · exact hle (Nat.zero_le _) (.left _ _ (by rw [hw]; exact (by decide : 0 < 6)))
    · split
      · exact hle (Nat.le_refl _) (.left _ _ (by rw [hw]; exact (by decide : 5 < 6)))
      · exact hle (Nat.le_refl _) (.left _ _ (by rw [hw]; exact (by decide : 2 < 6)))
  · next hw =>
    cases h
    exact hle (Nat.le_refl _) (.left _ _ (by rw [hw]; exact (by decide : 4 < 5)))
  · next hw =>
    cases h
    split
    · exact hle (Nat.le_refl _) (.left _ _ (by rw [hw]; exact (by decide : 3 < 4)))
    · exact hle (Nat.zero_le _) (.left _ _ (by rw [hw]; exact (by decide : 0 < 4)))
  · next hw =>
    cases h
    exact hle (Nat.le_refl _) (.left _ _ (by rw [hw]; exact (by decide : 2 < 3)))
  · next e effects hw =>
    cases h
    refine hle (Nat.le_of_eq (congrArg List.length (applyEffect_inbound s e))) ?_
    rw [hw]
    exact .right _ (Nat.lt_succ_self _)

/-- Run the encode thread until it waits for a message, has ended or was never started. -/
def settle (s : System β) : System β :=
  match _h : s.workerStep B with
  | none => s
  | some t => settle t
termination_by (s.inbound.length, s.worker.rank, s.worker.pending)
decreasing_by exact workerStep_decreases B _h

/-- Run the owner's call to its end, in at most `steps` steps; while it waits for the encode
thread to end, that thread runs. -/
def finish : (steps : Nat) → System β → System β
  | 0, s => s
  | steps + 1, s =>
    match s.ownerStep B with
    | some t => finish steps t
    | none =>
      match s.owner with
      | .joining => finish steps (s.settle B)
      | _ => s

/-- No call of the owner takes more steps, the wait for the encode thread included. -/
def callSteps : Nat := 6

/-- Make a call of the owner and run it to its end. -/
def call (s : System β) (c : Call) : System β :=
  match s.callStep c with
  | some t => t.finish B callSteps
  | none => s

/-- The answer of the last call. -/
def lastAnswer (s : System β) : Option Answer :=
  match s.owner with
  | .ready a => a
  | _ => none

/-- Take every result that is there. -/
def drain (s : System β) : List EncodeResult × System β :=
  (s.outbound, { s with outbound := [] })

/-- Run the encode thread up to the point where it is about to deal with a command, or to rest. -/
def settleToEncoding (s : System β) : System β :=
  match s.worker with
  | .encoding _ _ => s
  | _ =>
    match _h : s.workerStep B with
    | none => s
    | some t => settleToEncoding t
termination_by (s.inbound.length, s.worker.rank, s.worker.pending)
decreasing_by exact workerStep_decreases B _h

end System

end FrameEncoder
