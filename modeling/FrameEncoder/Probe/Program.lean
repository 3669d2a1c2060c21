import FrameEncoder.Config.Document
import FrameEncoder.Probe.Arguments
import FrameEncoder.Probe.Report

/-!
# The probe as a program

What the probe does, as a value: it reads files one after the other and ends with an exit code and
its output. No codec library is linked, so after the self-test there is never an encoder to run a
workload with.
-/

namespace FrameEncoder.Probe

/-- A program that reads files and ends. -/
inductive Program where
  | done (exitCode : UInt32) (output : String)
  | readFile (path : String) (next : Except ReadFailure ByteArray → Program)

namespace Program

/-- The path of the settings when none is given. -/
def defaultConfigPath : String := "gfxenc-probe.toml"

/-- The exit code for arguments that make no sense. -/
def usageExitCode : UInt32 := 2

/-- The settings with the arguments put in. -/
def overrides (a : Arguments) (c : Config) : Config :=
  { c with
    gfxPath := a.gfxPath.getD c.gfxPath
    workload := { c.workload with
      frames := a.frames.getD c.workload.frames
      width := a.width.getD c.workload.width
      height := a.height.getD c.workload.height } }

/-- The report on a loaded configuration. -/
def reportDocument (l : GfxLoad) : String :=
  Toml.printSections [("self_test", (SelfTestReport.ofLoad l).toFields)]

/-- Test the engines for the codec configuration that the settings name. -/
def probe (c : Config) : Program :=
  .readFile c.gfxPath fun contents => .done 0 (reportDocument (loadFile contents) ++ "\n")

/-- The program of some arguments. -/
def ofArguments (args : List String) : Program :=
  match Arguments.read? args with
  | none => .done usageExitCode ""
  | some a =>
    if a.genConfig then .done 0 (defaultDocument ++ "\n")
    else .readFile (a.configPath.getD defaultConfigPath) fun contents =>
      probe (overrides a (.ofFile contents))

/-- Run a program where files are given by their paths. -/
def runOn (files : String → Except ReadFailure ByteArray) : Program → UInt32 × String
  | done exitCode output => (exitCode, output)
  | readFile path next => (next (files path)).runOn files

end Program

end FrameEncoder.Probe
