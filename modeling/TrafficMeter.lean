import TrafficMeter.Main
import TrafficMeter.Proofs.Accounting
import TrafficMeter.Proofs.Atomicity
import TrafficMeter.Proofs.ByteOrder
import TrafficMeter.Proofs.Canonical
import TrafficMeter.Proofs.ColorOrder
import TrafficMeter.Proofs.Conformance
import TrafficMeter.Proofs.Eager
import TrafficMeter.Proofs.Edits
import TrafficMeter.Proofs.EqualTiers
import TrafficMeter.Proofs.Fault
import TrafficMeter.Proofs.Footprint
import TrafficMeter.Proofs.GivenColor
import TrafficMeter.Proofs.Identity
import TrafficMeter.Proofs.Independence
import TrafficMeter.Proofs.Invocation
import TrafficMeter.Proofs.Names
import TrafficMeter.Proofs.Optimum
import TrafficMeter.Proofs.Overflow
import TrafficMeter.Proofs.PacketPaths
import TrafficMeter.Proofs.Readback
import TrafficMeter.Proofs.Reencoding
import TrafficMeter.Proofs.Replay
import TrafficMeter.Proofs.SavedClock
import TrafficMeter.Proofs.Schedule
import TrafficMeter.Proofs.Tiers
import TrafficMeter.Tool.FileTree
import TrafficMeter.Proofs.RawRecord
import TrafficMeter.Proofs.Trimming
import TrafficMeter.Proofs.HexGrammar
import TrafficMeter.Proofs.LimitGrammar
import TrafficMeter.Proofs.Sections
import TrafficMeter.Proofs.Bounds
