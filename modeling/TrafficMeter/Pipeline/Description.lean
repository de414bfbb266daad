import TrafficMeter.MeasureUnit
import TrafficMeter.Table.Layout

/-!
# Pipeline descriptions

What an operator writes down about a pipeline (`Description`): the resolution of its timer, its meter stores and
its tables. A description is acceptable if all names are distinct and not empty and nothing has no meters
(`Description.validate`).
-/

namespace TrafficMeter

/-- A meter store as it is described. -/
structure StoreDescription where
  /-- The name of the store. -/
  name : String
  /-- The number of meters. -/
  capacity : UInt32
  /-- The unit in which the meters count. -/
  unit : MeasureUnit := .bytes
deriving DecidableEq, Repr

/-- A table as it is described. -/
structure TableDescription where
  /-- The name of the table. -/
  name : String
  /-- The layout of entry values. -/
  layout : Layout
  /-- The unit in which the meters of the entries count. -/
  unit : MeasureUnit := .bytes
deriving DecidableEq, Repr

/-- A pipeline as it is described. -/
structure Description where
  /-- The resolution of the timer in nanoseconds. -/
  resolution : UInt64 := 1
  /-- The meter stores. -/
  stores : List StoreDescription := []
  /-- The tables. -/
  tables : List TableDescription := []
deriving DecidableEq, Repr

namespace Description

/-- All names in `description`, those of stores before those of tables. -/
def names (description : Description) : List String :=
  description.stores.map StoreDescription.name ++ description.tables.map TableDescription.name

/-- `checkNames seen names` checks `names` from first to last: none is empty, and none is in `seen` or occurs
before. -/
def checkNames (seen : List String) : List String → Except Error Unit
  | [] => .ok ()
  | name :: rest =>
    if name = "" then .error (.invalidConfig .emptyName)
    else if name ∈ seen then .error (.invalidConfig (.duplicateName name))
    else checkNames (name :: seen) rest

/-- Accepts `description`, or reports its first fault: names first, then stores without meters, then tables
without meters. -/
def validate (description : Description) : Except Error Unit := do
  checkNames [] description.names
  if let some store := description.stores.find? fun store => store.capacity = 0 then
    throw (.invalidConfig (.noCapacity store.name))
  if let some table := description.tables.find? fun table => table.layout.meters = 0 then
    throw (.invalidConfig (.noMeters table.name))

end Description

end TrafficMeter
