import TrafficMeter.Clock
import TrafficMeter.Codec.Record
import TrafficMeter.Codec.Snapshot
import TrafficMeter.Json.Printer
import TrafficMeter.Tool.StateFile
import TrafficMeter.Tool.Target

/-!
# Sessions

A `Session` is a pipeline with a clock. Commands are carried out on it one after the other (`Session.execute`).
Files are touched only before the first command and after the last one.
-/

namespace TrafficMeter.Tool

/-- A pipeline at work, with the clock that gives its packets their times. -/
structure Session where
  /-- The stores and tables. -/
  pipeline : Pipeline
  /-- The packet clock. -/
  clock : Clock
deriving DecidableEq

namespace Session

/-- A session on the unconfigured pipeline of `description`, whose clock reads zero when the timer reads `timer`.
-/
def start (description : Description) (timer : Nat) : Except Failure Session := do
  let pipeline ← (Pipeline.ofDescription description).mapError Failure.ofError
  return { pipeline, clock := { origin := timer } }

/-- A session on `pipeline` that goes on from `state`, which was loaded from `path`. Its clock goes on from
`state.clock` by the wall-clock time since `state.savedAt`. -/
def resume (path : String) (pipeline : Pipeline) (state : StateFile) (wallTime : UInt64) (timer : Nat) :
    Except Failure Session :=
  match pipeline.restore state.snapshot with
  | (restored, .ok ()) =>
    .ok { pipeline := restored, clock := .resume timer state.clock state.savedAt wallTime }
  | (_, .error error) =>
    .error (Failure.of s!"State file {path} does not match pipeline" (.meter error))

/-- The state of `session` to be saved, when the clocks of the machine read `timer` and `wallTime`. -/
def toState (session : Session) (timer : Nat) (wallTime : UInt64) : StateFile :=
  { clock := session.clock.read timer, savedAt := wallTime, snapshot := session.pipeline.snapshot }

/-- The text that shows the meter `target`, whose record is `record`. -/
def describe (target : Target) (record : Record) : String :=
  (Json.ofMembers
    [("meter", .text target.label), ("configured", .bool !record.isUnconfigured),
      ("rates", (Profile.ofRecord record).toJson), ("record", record.toJson),
      ("value", .text (Hex.format record.toBytes))]).render .pretty

/-- The text that shows the `colors` of a packet that was metered on `target` at `now`. -/
def describeColors (target : Target) (now : UInt64) (colors : List Color) : String :=
  (Json.ofMembers
    [("meter", .text target.label), ("at", .word now),
      ("colors", .array (colors.map fun color => .text color.name))]).render .pretty

/-- The text that sums up `pipeline` after its initialization. -/
def summary (pipeline : Pipeline) : String :=
  s!"Initialized {pipeline.stores.size} indirect meter(s) and {pipeline.tables.size} table(s)"

/-- `pipeline` with the profile `profile` for the meter `target`. -/
def update (pipeline : Pipeline) (target : MeterTarget) (profile : Profile) : Except Failure Pipeline := do
  let target ← Target.resolve pipeline target
  (target.configure pipeline profile).mapError fun error =>
    Failure.of s!"Failed to update {target.label}" (.meter error)

/-- The text that shows the meter `target` of `pipeline`. -/
def get (pipeline : Pipeline) (target : MeterTarget) : Except Failure String := do
  let target ← Target.resolve pipeline target
  let record ← target.read.mapError fun error =>
    Failure.of s!"Failed to read {target.label}" (.meter error)
  return describe target record

/-- `pipeline` with the meter `target` unconfigured. -/
def reset (pipeline : Pipeline) (target : MeterTarget) : Except Failure Pipeline := do
  let target ← Target.resolve pipeline target
  (target.reset pipeline).mapError fun error =>
    Failure.of s!"Failed to reset {target.label}" (.meter error)

/-- `pipeline` with the raw `value` under the key of `entry`. The table is looked for before the texts are
parsed. -/
def entryUpdate (pipeline : Pipeline) (entry : EntryTarget) (value : String) :
    Except Failure Pipeline := do
  let table ← findTable pipeline entry.table
  let key ← parseHex "key" entry.key
  let value ← parseHex "value" value
  let updated ← (table.update key value).mapError Failure.ofError
  return pipeline.putTable table.name updated

/-- The text that shows the raw value of `entry` in `pipeline`. -/
def entryGet (pipeline : Pipeline) (entry : EntryTarget) : Except Failure String := do
  let table ← findTable pipeline entry.table
  let key ← parseHex "key" entry.key
  let value ← (table.entryValue key).mapError Failure.ofError
  return Hex.format value

/-- `pipeline` without the key of `entry`. -/
def entryDelete (pipeline : Pipeline) (entry : EntryTarget) : Except Failure Pipeline := do
  let table ← findTable pipeline entry.table
  let key ← parseHex "key" entry.key
  let updated ← (table.delete key).mapError Failure.ofError
  return pipeline.putTable table.name updated

/-- `session` after a change of its pipeline, which prints nothing, or as it was if the change was refused. -/
def commit (session : Session) : Except Failure Pipeline → Except Failure String × Session
  | .ok pipeline => (.ok "", { session with pipeline })
  | .error failure => (.error failure, session)

/-- Meters a packet of `length` bytes on `target`, at `time` if that is given or else at the reading of the
clock. The clock goes past this time even if the meter is then found not to exist. -/
def meterPacket (session : Session) (timer : Nat) (target : MeterTarget) (length : UInt32)
    (time : Option UInt64) (color : Option Color) : Except Failure String × Session :=
  match Target.resolve session.pipeline target with
  | .error failure => (.error failure, session)
  | .ok target =>
    let now := time.getD (session.clock.read timer)
    let observed := { session with clock := session.clock.advanceTo now }
    match target.execute session.pipeline length now color with
    | .error error => (.error (Failure.ofError error), observed)
    | .ok (colors, pipeline) => (.ok (describeColors target now colors), { observed with pipeline })

/-- Carries out a command on `session` when the monotonic timer reads `timer`. The result is the text to print or
a failure, with the session that follows. A refused command leaves the pipeline as it was. -/
def execute (session : Session) (timer : Nat) : Command → Except Failure String × Session
  | .init _ => (.ok (summary session.pipeline), session)
  | .update target profile => session.commit (update session.pipeline target profile)
  | .get target => (get session.pipeline target, session)
  | .reset target => session.commit (reset session.pipeline target)
  | .execute target length time color => session.meterPacket timer target length time color
  | .entryUpdate entry value => session.commit (entryUpdate session.pipeline entry value)
  | .entryGet entry => (entryGet session.pipeline entry, session)
  | .entryDelete entry => session.commit (entryDelete session.pipeline entry)
  | .stats => (.ok ((session.pipeline.tallies.toJson Tally.toJson).render .pretty), session)

end Session

end TrafficMeter.Tool
