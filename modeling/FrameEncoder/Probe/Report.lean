import FrameEncoder.Backend.Selection
import FrameEncoder.Probe.Config
import FrameEncoder.Toml.Printer

/-!
# Probe documents

The documents the probe prints: its default settings, and its report on which engines work for a
loaded configuration.
-/

namespace FrameEncoder.Probe

open Toml (Plain PlainFields)

/-- The settings of the probe as sections of a document. -/
def Config.toSections (c : Config) : List (String × PlainFields) :=
  [("gfx", [("config_path", .text c.gfxPath)]),
    ("pipeline",
      [("max_compressed_bytes", .number c.pipeline.maxCompressedBytes),
        ("pad_bytes", .number c.pipeline.padBytes)] ++
      (c.pipeline.outputChunkBytes.toList.map fun n => ("output_chunk_bytes", .number n)) ++
      [("max_frames_in_flight", .number c.pipeline.maxFramesInFlight.toNat),
        ("connection_type", .text (className c.pipeline.connection))]),
    ("workload",
      [("frames", .number c.workload.frames.toNat),
        ("width", .number c.workload.width.toNat),
        ("height", .number c.workload.height.toNat),
        ("format", .text c.workload.format),
        ("channels", .number c.workload.channels.toNat),
        ("ack_off", .flag c.workload.ackOff)]),
    ("logging", [("level", .text c.logLevel)])]

/-- The default settings as a document. -/
def defaultDocument : String := Toml.printSections (default : Config).toSections

/-- Which engines work for a loaded configuration. -/
structure SelfTestReport where
  status : LoadStatus
  codecOrder : CodecOrder
  encoder : H264Encoder
  openH264Works : Bool
  x264Works : Bool
  /-- The encoder a session would use. -/
  selected : Option H264Encoder
deriving DecidableEq, Repr

namespace SelfTestReport

/-- Test the engines that are part of this program for a loaded configuration. -/
def ofLoad (l : GfxLoad) : SelfTestReport where
  status := l.status
  codecOrder := l.config.codecOrder
  encoder := l.config.encoder
  openH264Works := (linkedEngines.selfTest .openH264).1
  x264Works := (linkedEngines.selfTest .x264).1
  selected := selectLinked l.config

/-- The report as fields of a document. -/
def toFields (r : SelfTestReport) : PlainFields :=
  [("gfx_status", .text r.status.name),
    ("codec_order", .text r.codecOrder.display),
    ("h264_encoder", .text r.encoder.name),
    ("openh264_functional", .flag r.openH264Works),
    ("x264_functional", .flag r.x264Works)] ++
  r.selected.toList.map fun e => ("selected", .text e.name)

/-- The report as a document of its own. -/
def document (r : SelfTestReport) : String := Toml.printFields r.toFields

end SelfTestReport

end FrameEncoder.Probe
