import FrameEncoder.Probe.Program

/-!
# The command line

Runs the probe on the files of the system.
-/

namespace FrameEncoder.Probe

/-- What reading a file of the system gave. -/
def readSystemFile (path : String) : IO (Except ReadFailure ByteArray) := do
  try
    return .ok (← IO.FS.readBinFile path)
  catch e =>
    match e with
    | .noFileOrDirectory _ _ _ => return .error .notFound
    | e => return .error (.other (toString e))

/-- Run a program on the files of the system. -/
def Program.run : Program → IO UInt32
  | .done exitCode output => do
    IO.print output
    return exitCode
  | .readFile path next => do
    let contents ← readSystemFile path
    (next contents).run

end FrameEncoder.Probe

/-- Run the probe with the arguments of the command line. -/
def main (args : List String) : IO UInt32 :=
  (FrameEncoder.Probe.Program.ofArguments args).run
