import FrameEncoder.Backend.H264
import FrameEncoder.Config.Load

/-!
# Choosing an encoder

The backend a configuration asks for, if H.264 is in its order and the encoder's library works.
-/

namespace FrameEncoder

namespace GfxConfig

/-- The OpenH264 backend of a configuration over an engine. -/
def openH264Backend {σ : Type} (c : GfxConfig) (E : Engine OpenH264Params σ) :
    H264Backend OpenH264Params σ := ⟨.openH264, E, c.tuning.openH264⟩

/-- The x264 backend of a configuration over an engine. -/
def x264Backend {σ : Type} (c : GfxConfig) (E : Engine X264Params σ) :
    H264Backend X264Params σ := ⟨.x264, E, c.tuning.x264⟩

end GfxConfig

/-- The engines of a program with their hosts. -/
structure Engines (σ τ : Type) where
  openH264 : Engine OpenH264Params σ
  x264 : Engine X264Params τ
  openH264Host : Host OpenH264Params σ
  x264Host : Host X264Params τ

namespace Engines

variable {σ τ : Type}

/-- Test the library of an encoder. -/
def selfTest (e : Engines σ τ) : H264Encoder → Bool × Engines σ τ
  | .openH264 =>
    let (ok, host) := e.openH264.selfTest e.openH264Host
    (ok, { e with openH264Host := host })
  | .x264 =>
    let (ok, host) := e.x264.selfTest e.x264Host
    (ok, { e with x264Host := host })

/-- The encoder a configuration asks for, if it may be used. -/
def select (e : Engines σ τ) (c : GfxConfig) : Option H264Encoder × Engines σ τ :=
  if !c.codecOrder.contains .h264 then (none, e)
  else
    let (ok, e) := e.selfTest c.encoder
    (if ok then some c.encoder else none, e)

end Engines

/-- The engines that are part of this program: none is linked. -/
def linkedEngines : Engines Unit Unit where
  openH264 := .unlinked OpenH264Params H264Encoder.openH264.name
  x264 := .unlinked X264Params H264Encoder.x264.name
  openH264Host := .fresh ()
  x264Host := .fresh ()

/-- The encoder this program uses for a configuration. -/
def selectLinked (c : GfxConfig) : Option H264Encoder := (linkedEngines.select c).1

/-- Without a linked library no encoder is used. -/
theorem selectLinked_eq_none (c : GfxConfig) : selectLinked c = none := by
  unfold selectLinked Engines.select
  split
  · rfl
  · cases c.encoder <;> rfl

end FrameEncoder
