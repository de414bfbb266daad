import TrafficMeter.Pipeline.Basic
import TrafficMeter.Tool.Command
import TrafficMeter.Tool.Failure

/-!
# Meters behind names

An operator addresses a meter by a name that may be of a store or of a table. Here the name is looked up
(`Target.resolve`), and each operation on one meter is carried out on whichever of the two it is (`Target`).
-/

namespace TrafficMeter.Tool

/-- A meter that was found in a pipeline. -/
inductive Target where
  /-- The meter at `index` of `store`. -/
  | indirect (store : Store) (index : UInt32)
  /-- The meter in `slot`, if one was asked for, of the entry under `key` in `table`. -/
  | direct (table : Table) (key : Bytes) (slot : Option Nat)

/-- The bytes of the hexadecimal `text`. An error says that it was given as `what`, a key or a value. -/
def parseHex (what text : String) : Except Failure Bytes :=
  (Hex.parse text).mapError fun error => Failure.of s!"Invalid hex {what} '{text}'" (.hex error)

/-- The table `name` of `pipeline`. -/
def findTable (pipeline : Pipeline) (name : String) : Except Failure Table :=
  (pipeline.table name).mapError Failure.ofError

namespace Target

/-- Finds the meter `target` in `pipeline`. Stores come before tables, and a name of neither is refused before
anything else. -/
def resolve (pipeline : Pipeline) (target : MeterTarget) : Except Failure Target := do
  match pipeline.stores.find? target.meter with
  | some store =>
    match target.index with
    | some index => return .indirect store index
    | none => throw (.rule s!"'{target.meter}' is an indirect meter, --index is required")
  | none =>
    let table ← findTable pipeline target.meter
    match target.key with
    | some key => return .direct table (← parseHex "key" key) target.slot
    | none => throw (.rule s!"'{target.meter}' is a table, --key is required")

/-- The name of a meter in messages, such as `m[3]` or `t[0A]#1`. -/
def label : Target → String
  | .indirect store index => s!"{store.name}[{index}]"
  | .direct table key none => s!"{table.name}[{Hex.format key}]"
  | .direct table key (some slot) => s!"{table.name}[{Hex.format key}]#{slot}"

/-- The record of the meter. A table entry without a slot stands for its first meter. -/
def read : Target → Except Error Record
  | .indirect store index => store.read index
  | .direct table key slot => table.read key (slot.getD 0)

/-- `pipeline` with `profile` for the meter, which was found in it. -/
def configure (pipeline : Pipeline) (profile : Profile) : Target → Except Error Pipeline
  | .indirect store index => (store.configure index profile).map (pipeline.putStore store.name)
  | .direct table key slot =>
    (table.configure key (slot.getD 0) profile).map (pipeline.putTable table.name)

/-- `pipeline` with the meter unconfigured, which was found in it. -/
def reset (pipeline : Pipeline) : Target → Except Error Pipeline
  | .indirect store index => (store.reset index).map (pipeline.putStore store.name)
  | .direct table key slot => (table.reset key (slot.getD 0)).map (pipeline.putTable table.name)

/-- Meters a packet of `length` bytes that arrives at `now` with the colour `color` or none. A table entry for
which neither a slot nor a colour was asked takes it as a hit. -/
def execute (pipeline : Pipeline) (length : UInt32) (now : UInt64) (color : Option Color) :
    Target → Except Error (List Color × Pipeline)
  | .indirect store index => do
    let (given, store') ← store.executeFrom index (color.getD .green) length now
    return ([given], pipeline.putStore store.name store')
  | .direct table key slot =>
    match slot, color with
    | none, none => do
      let (hit, table') ← table.hit key length now
      return (hit.colors, pipeline.putTable table.name table')
    | _, some incoming => do
      let (given, table') ← table.executeFrom key (slot.getD 0) incoming length now
      return ([given], pipeline.putTable table.name table')
    | _, none => do
      let (given, table') ← table.execute key (slot.getD 0) length now
      return ([given], pipeline.putTable table.name table')

end Target

end TrafficMeter.Tool
