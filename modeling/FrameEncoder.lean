import FrameEncoder.Bytes
import FrameEncoder.Bytes.Digest
import FrameEncoder.Rect
import FrameEncoder.PixelFormat
import FrameEncoder.ConnectionClass
import FrameEncoder.Error
import FrameEncoder.FrameHeader
import FrameEncoder.Command
import FrameEncoder.Picture
import FrameEncoder.Picture.Plane
import FrameEncoder.Picture.DamageCopy
import FrameEncoder.Picture.RgbConversion
import FrameEncoder.Bitstream
import FrameEncoder.Engine
import FrameEncoder.Engine.Script
import FrameEncoder.Pool
import FrameEncoder.Tuning
import FrameEncoder.Request
import FrameEncoder.Backend
import FrameEncoder.Backend.H264
import FrameEncoder.Backend.Scripted
import FrameEncoder.Backend.Selection
import FrameEncoder.Pipeline.Flow
import FrameEncoder.Pipeline.Stats
import FrameEncoder.Pipeline.Result
import FrameEncoder.Pipeline.Config
import FrameEncoder.Pipeline.Publication
import FrameEncoder.Pipeline.System
import FrameEncoder.Pipeline.Schedule
import FrameEncoder.NearestDouble
import FrameEncoder.Toml.Value
import FrameEncoder.Toml.Text
import FrameEncoder.Toml.Scalar
import FrameEncoder.Toml.Section
import FrameEncoder.Toml.DateTable
import FrameEncoder.Toml.Document
import FrameEncoder.Toml.Printer
import FrameEncoder.Config.CodecOrder
import FrameEncoder.Config.Issue
import FrameEncoder.Config.Cascade
import FrameEncoder.Config.Load
import FrameEncoder.Config.Document
import FrameEncoder.Probe.Config
import FrameEncoder.Probe.SyntheticFrame
import FrameEncoder.Probe.Runner
import FrameEncoder.Probe.Report
import FrameEncoder.Probe.Arguments
import FrameEncoder.Probe.Program
import FrameEncoder.Main
import FrameEncoder.Proofs.Picture.Transfers
import FrameEncoder.Proofs.Rect.Intersection
import FrameEncoder.Proofs.Rect.CommonPoints
import FrameEncoder.Proofs.Picture.Clipping
import FrameEncoder.Proofs.Picture.ChromaPlanes
import FrameEncoder.Proofs.Picture.Conversion
import FrameEncoder.Proofs.Picture.ChromaCoverage
import FrameEncoder.Proofs.Backend.Bodies
import FrameEncoder.Proofs.Backend.Calls
import FrameEncoder.Proofs.Pipeline.Completion
import FrameEncoder.Proofs.Backend.Recording
import FrameEncoder.Proofs.Backend.Damage
import FrameEncoder.Proofs.Pipeline.Schedules
import FrameEncoder.Proofs.Pipeline.ResultGroups
import FrameEncoder.Proofs.Pipeline.ResultStream
import FrameEncoder.Proofs.Pipeline.EffectTrace
import FrameEncoder.Proofs.Pipeline.Lifecycle
import FrameEncoder.Proofs.Pipeline.Announcements
import FrameEncoder.Proofs.Pipeline.MarkOrder
import FrameEncoder.Proofs.Pipeline.Totals
import FrameEncoder.Proofs.Pipeline.FrameCounters
import FrameEncoder.Proofs.Pipeline.Dispatch
import FrameEncoder.Proofs.Pipeline.Shutdown
import FrameEncoder.Proofs.Pipeline.OwnerCalls
import FrameEncoder.Proofs.Pipeline.RefusedSubmissions
import FrameEncoder.Proofs.Backend.Creations
import FrameEncoder.Proofs.Pipeline.Reinitialisation
import FrameEncoder.Proofs.Backend.Openings
import FrameEncoder.Proofs.Config.Lookup
import FrameEncoder.Proofs.Config.Negotiation
import FrameEncoder.Proofs.Backend.SessionLife
import FrameEncoder.Proofs.Backend.Lockstep
import FrameEncoder.Proofs.Picture.ConvertedBytes
import FrameEncoder.Proofs.Picture.DamageConversion
import FrameEncoder.Proofs.Pipeline.FlowUses
import FrameEncoder.Proofs.Pipeline.Pacing
import FrameEncoder.Proofs.FrameHeader.RoundTrip
import FrameEncoder.Proofs.Config.Reporting
import FrameEncoder.Proofs.Pipeline.SentFrames
import FrameEncoder.Proofs.Pipeline.CrashFree
import FrameEncoder.Proofs.Pipeline.Outcomes
import FrameEncoder.Proofs.Probe.RunnerMoves
import FrameEncoder.Proofs.Pipeline.Settlement
import FrameEncoder.Proofs.Probe.RunnerPlaces
import FrameEncoder.Proofs.Probe.RunnerAccounts
import FrameEncoder.Proofs.Probe.RunnerCounters
import FrameEncoder.Proofs.Probe.RunnerEnds
import FrameEncoder.Proofs.Probe.Starvation
import FrameEncoder.Proofs.Probe.Reports
import FrameEncoder.Proofs.Probe.OutcomeCounts
import FrameEncoder.Proofs.FrameHeader.Acceptance
import FrameEncoder.Proofs.Picture.CopiedSamples
import FrameEncoder.Proofs.Picture.CopyOrder
import FrameEncoder.Proofs.Picture.Deinterleaving
import FrameEncoder.Proofs.Picture.ConvertedPixels
import FrameEncoder.Proofs.Backend.Readiness
import FrameEncoder.Proofs.Backend.StoredOutput
