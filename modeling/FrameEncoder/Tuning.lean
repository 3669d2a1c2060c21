import FrameEncoder.ConnectionClass

/-!
# Encoder tuning

The two H.264 encoders and the parameters each can be tuned with for a connection class.
-/

namespace FrameEncoder

/-- An implementation of H.264. -/
inductive H264Encoder where
  | x264
  | openH264
deriving DecidableEq, Repr, Inhabited

/-- The name of an encoder. -/
def H264Encoder.name : H264Encoder → String
  | x264 => "x264"
  | openH264 => "OpenH264"

/-- Parameters of x264. Rates are in kilobits. -/
structure X264Params where
  preset : String
  tune : String
  profile : String
  vbvMaxBitrate : Int64
  vbvBufferSize : Int64
  fpsNum : Int64
  fpsDen : Int64
  threads : Int64
deriving DecidableEq, Repr

/-- The documented constants. A session gets one thread, so that no user can exhaust the host. -/
def X264Params.constants : X264Params where
  preset := "ultrafast"
  tune := "zerolatency"
  profile := "main"
  vbvMaxBitrate := 0
  vbvBufferSize := 0
  fpsNum := 24
  fpsDen := 1
  threads := 1

instance : Inhabited X264Params := ⟨.constants⟩

/-- Parameters of OpenH264. Rates are in bits a second. -/
structure OpenH264Params where
  enableFrameSkip : Bool
  targetBitrate : Int64
  maxBitrate : Int64
  maxFrameRate : Float32
deriving Repr

/-- The documented constants. -/
def OpenH264Params.constants : OpenH264Params where
  enableFrameSkip := false
  targetBitrate := 0
  maxBitrate := 0
  maxFrameRate := 0

instance : Inhabited OpenH264Params := ⟨.constants⟩

/-- The parameters of both encoders for every connection class. -/
structure Tuning where
  x264 : ParamTable X264Params
  openH264 : ParamTable OpenH264Params

/-- The documented constants for every class. -/
def Tuning.constants : Tuning := ⟨.const .constants, .const .constants⟩

end FrameEncoder
