import FrameEncoder.Backend

/-!
# Scripted backends

A backend without slots or sessions that answers every request from a script and records what it
was asked, to see how the pipeline deals with any course of events.
-/

namespace FrameEncoder

/-- A scripted answer to a request. -/
inductive RequestAnswer where
  | crash
  | fail (error : BackendError)
  /-- Write bytes, or the request's own pixels, as far as they find room, and claim a number of
  bytes, or as many as were written. -/
  | write (bytes : Option ByteArray) (claim : Option Nat) (flags : ContextFlags)

/-- A request as a scripted backend saw it. -/
structure SeenRequest where
  request : EncodeRequest
  /-- The size of the destination. -/
  capacity : Nat

/-- The answers still to give, the one that goes on after them, and the requests seen. -/
structure ScriptedBackend where
  answers : List RequestAnswer
  rest : RequestAnswer
  seen : List SeenRequest

namespace ScriptedBackend

/-- The reply to a request by an answer, with the destination after it. -/
def reply (r : EncodeRequest) (dest : ByteArray) : RequestAnswer → EncodeReply × ByteArray
  | .crash => (.crashed, dest)
  | .fail e => (.failed e, dest)
  | .write bytes claim flags =>
    let written := Bytes.window (bytes.getD r.data) 0 dest.size
    (.done ⟨claim.getD written.size, flags⟩, Bytes.overlay dest 0 written)

/-- Answer a request and record it. -/
def encode (s : ScriptedBackend) (r : EncodeRequest) (dest : ByteArray) :
    EncodeReply × ByteArray × ScriptedBackend :=
  let s := { s with seen := s.seen ++ [SeenRequest.mk r dest.size] }
  match s.answers with
  | [] =>
    let (reply, dest) := reply r dest s.rest
    (reply, dest, s)
  | a :: answers =>
    let (reply, dest) := reply r dest a
    (reply, dest, { s with answers })

/-- The backend that follows a script. It passes for an encoder that works. -/
def backend : Backend ScriptedBackend where
  encoder := .x264
  selfTest s := (true, s)
  encode := encode
  release s := s

end ScriptedBackend

end FrameEncoder
