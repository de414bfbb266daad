import TrafficMeter.Color
import TrafficMeter.Profile

/-!
# Commands

What an operator can ask for (`Command`) in one invocation of the tool (`Invocation`).
-/

namespace TrafficMeter.Tool

/-- A meter as it is addressed: in a store by index, or in a table by the key of an entry and a slot. -/
structure MeterTarget where
  /-- The name of the store or table. -/
  meter : String
  /-- The index in a store. -/
  index : Option UInt32 := none
  /-- The key of an entry, in hexadecimal text. -/
  key : Option String := none
  /-- The slot of the meter in the entry. -/
  slot : Option Nat := none
deriving DecidableEq, Repr

/-- A table entry as it is addressed. -/
structure EntryTarget where
  /-- The name of the table. -/
  table : String
  /-- The key, in hexadecimal text. -/
  key : String
deriving DecidableEq, Repr

/-- A command with its arguments. -/
inductive Command where
  /-- Create the state file of an unconfigured pipeline, and with `force` replace one that exists. -/
  | init (force : Bool)
  /-- Give the meter `target` the profile `profile`. -/
  | update (target : MeterTarget) (profile : Profile)
  /-- Show the meter `target`. -/
  | get (target : MeterTarget)
  /-- Make the meter `target` unconfigured again. -/
  | reset (target : MeterTarget)
  /-- Meter a packet of `length` bytes on `target`, at `time` or else now, with the colour `color` or none. -/
  | execute (target : MeterTarget) (length : UInt32) (time : Option UInt64) (color : Option Color)
  /-- Write the raw `value` under the key of `entry`. -/
  | entryUpdate (entry : EntryTarget) (value : String)
  /-- Show the raw value of `entry`. -/
  | entryGet (entry : EntryTarget)
  /-- Remove `entry`. -/
  | entryDelete (entry : EntryTarget)
  /-- Show all tallies. -/
  | stats
deriving DecidableEq, Repr

/-- The command may change the saved state, so the session is saved after it. -/
def Command.isMutating : Command → Bool
  | .get _ => false
  | .entryGet _ => false
  | .stats => false
  | _ => true

/-- One invocation of the tool. -/
structure Invocation where
  /-- The path of the pipeline description. -/
  pipeline : String := "pipeline.yaml"
  /-- The path of the state file. -/
  state : String := "meters.json"
  /-- How much is logged. -/
  logLevel : String := "warn"
  /-- What to do. -/
  command : Command
deriving DecidableEq, Repr

end TrafficMeter.Tool
