import TrafficMeter.MeasureUnit
import TrafficMeter.Profile
import TrafficMeter.Routine
import TrafficMeter.Table.Entry
import TrafficMeter.Tally
import TrafficMeter.UnorderedMap

/-!
# Tables with meters in their entries

A table finds entries by the bytes of their keys. Entries are objects of their own: the table maps each key
to the number of an object, an update of a present key rewrites its object, and an object that was removed
from the table lives on for those who still hold its number. Numbers are never used again.

The map from keys to numbers has no order. Only `Table.dump` lists all entries, and it sorts them.

What changes a table is a routine of `Table.Routine`, which works on the table in place. The function of the
same name in `Table` gives the table after the routine as a value, or the error of the routine.
-/

namespace TrafficMeter

/-- The number of an entry object, for those who hold the entry itself and not its key. -/
abbrev EntryId := Nat

/-- A table of entries with a common layout and unit, and the tally of the colours that they gave. -/
structure Table where
  /-- The name of the table. -/
  name : String
  /-- The layout of entry values. -/
  layout : Layout
  /-- The unit in which all meters count. -/
  unit : MeasureUnit
  /-- The timer for which rates are encoded. -/
  timer : Timer
  /-- Every entry object that was ever inserted, by its number. -/
  objects : List Entry := []
  /-- The number of the object under each key. -/
  index : UnorderedMap Bytes EntryId := .empty
  /-- The colours given so far. -/
  tally : Tally := {}
deriving DecidableEq

/-- What a packet that hits an entry is told. -/
structure Hit where
  /-- The action of the entry. -/
  action : ActionRef
  /-- The colour that each meter of the entry gave. -/
  colors : List Color
deriving DecidableEq, Repr

namespace Table

/-- The table `name` without entries. -/
def create (name : String) (layout : Layout) (unit : MeasureUnit) (timer : Timer) : Table :=
  { name, layout, unit, timer }

/-- The object of the number `id`. -/
def object? (table : Table) (id : EntryId) : Option Entry :=
  table.objects[id]?

/-- The number of the object under `key`. -/
def lookup? (table : Table) (key : Bytes) : Option EntryId :=
  table.index.find? key

/-- The object under `key` with its number. -/
def find? (table : Table) (key : Bytes) : Option (EntryId × Entry) := do
  let id ← table.lookup? key
  let entry ← table.object? id
  return (id, entry)

/-- The object under `key`, which must be present, with its number. -/
def require (table : Table) (key : Bytes) : Except Error (EntryId × Entry) :=
  match table.find? key with
  | some found => .ok found
  | none => .error (.entryNotFound table.name key)

/-- The number of entries of `table`. -/
def size (table : Table) : Nat :=
  table.index.size

/-- `table` with `entry` as the object of the number `id`. -/
def putObject (table : Table) (id : EntryId) (entry : Entry) : Table :=
  { table with objects := table.objects.set id entry }

/-- The raw value of the entry under `key`. -/
def entryValue (table : Table) (key : Bytes) : Except Error Bytes := do
  let (_, entry) ← table.require key
  return entry.toBytes table.layout

/-- All keys of `table` with the raw values of their entries, listed in any order and then sorted by `sortPairs`.
-/
def dump (table : Table) : List (Bytes × Bytes) :=
  table.index.lift
    (fun bindings => sortPairs (bindings.filterMap fun (key, id) =>
      (table.object? id).map fun entry => (key, entry.toBytes table.layout)))
    fun _ _ hperm => sortPairs_eq_of_perm (hperm.filterMap _)

/-- The meter in `slot` of the entry under `key`, with the entry and its number. The key is looked at before the
slot. -/
def requireMeter (table : Table) (key : Bytes) (slot : Nat) :
    Except Error (EntryId × Entry × Record) := do
  let (id, entry) ← table.require key
  match entry.meters[slot]? with
  | some record => return (id, entry, record)
  | none => throw (.invalidSlot table.name slot table.layout.meters.toNat)

/-- The meter in `slot` of the entry under `key`. -/
def read (table : Table) (key : Bytes) (slot : Nat) : Except Error Record := do
  let (_, _, record) ← table.requireMeter key slot
  return record

/-- `table` with `tally` as its tally. -/
def loadTally (table : Table) (tally : Tally) : Table :=
  { table with tally }

/-- `table` after a packet of `length` bytes was counted on the object `id`, whether or not it is under a key. -/
def countObject (table : Table) (id : EntryId) (length : UInt32) : Table :=
  match table.object? id with
  | some entry => table.putObject id (entry.count length)
  | none => table

/-- The colour of a packet of `size` tokens that arrives with the colour `incoming` and is marked on the meter in
`slot` of the object `id`, outside of the tally, and the table after it. There is none if the object has no
such meter. -/
def markObjectFrom? (table : Table) (id : EntryId) (slot : Nat) (incoming : Color) (size now : UInt64) :
    Option (Color × Table) := do
  let entry ← table.object? id
  let record ← entry.meters[slot]?
  let (color, marked) := record.markFrom incoming size now
  return (color, table.putObject id (entry.putMeter slot marked))

/-- `Table.markObjectFrom?` for a packet that arrives without a colour. -/
def markObject? (table : Table) (id : EntryId) (slot : Nat) (size now : UInt64) :
    Option (Color × Table) :=
  table.markObjectFrom? id slot .green size now

/-! ### Routines -/

namespace Routine

/-- Writes the raw value `value` under `key`. All of `value` is decoded first. Then the object of a present key
is rewritten section by section, and an absent key gets a new object. -/
def update (key value : Bytes) : Routine Table Unit := do
  let table ← get
  let decoded ← Entry.ofBytes table.layout value
  match table.lookup? key with
  | some id => set { table with objects := table.objects.modify id (·.rewrite decoded) }
  | none =>
    set { table with
      objects := table.objects ++ [Entry.ofDecoded table.layout decoded]
      index := table.index.insert key table.objects.length }

/-- Removes `key`. Only then it is seen whether it was there. Its object stays among the objects. -/
def delete (key : Bytes) : Routine Table Unit := do
  let table ← get
  set { table with index := table.index.erase key }
  if (table.lookup? key).isNone then
    throw (.entryNotFound table.name key)

/-- Meters a packet of `length` bytes that arrives with the colour `incoming` on the meter in `slot` of the entry
under `key`: marks it and counts its colour. -/
def executeFrom (key : Bytes) (slot : Nat) (incoming : Color) (length : UInt32) (now : UInt64) :
    Routine Table Color := do
  let table ← get
  let (id, entry, record) ← table.requireMeter key slot
  let (color, marked) := record.markFrom incoming (table.unit.size length) now
  modify (·.putObject id (entry.putMeter slot marked))
  modify fun table => { table with tally := table.tally.add color }
  return color

/-- Lets a packet of `length` bytes hit the entry under `key`: it is counted once and metered on every meter of
the entry. -/
def hit (key : Bytes) (length : UInt32) (now : UInt64) : Routine Table Hit := do
  let table ← get
  let (id, entry) ← table.require key
  modify (·.putObject id (entry.count length))
  let (colors, marked) := (entry.count length).markAll (table.unit.size length) now
  modify (·.putObject id marked)
  modify fun table => { table with tally := table.tally.addAll colors }
  return { action := entry.action, colors }

/-- Gives the meter in `slot` of the entry under `key` the profile `profile` and full buckets. The meter is looked
for before the rates are encoded. -/
def configure (key : Bytes) (slot : Nat) (profile : Profile) : Routine Table Unit := do
  let table ← get
  let (id, entry, _) ← table.requireMeter key slot
  let record ← profile.toRecord table.timer
  modify (·.putObject id (entry.putMeter slot record))

/-- Makes the meter in `slot` of the entry under `key` unconfigured. -/
def reset (key : Bytes) (slot : Nat) : Routine Table Unit := do
  let table ← get
  let (id, entry, _) ← table.requireMeter key slot
  modify (·.putObject id (entry.putMeter slot {}))

end Routine

/-! ### Tables after routines -/

/-- The table after `Routine.update`. -/
def update (table : Table) (key value : Bytes) : Except Error Table :=
  (Routine.update key value).after table

/-- The table after `Routine.delete`. -/
def delete (table : Table) (key : Bytes) : Except Error Table :=
  (Routine.delete key).after table

/-- The colour and the table after `Routine.executeFrom`. -/
def executeFrom (table : Table) (key : Bytes) (slot : Nat) (incoming : Color) (length : UInt32)
    (now : UInt64) : Except Error (Color × Table) :=
  (Routine.executeFrom key slot incoming length now).attempt table

/-- The colour and the table after `Routine.executeFrom` for a packet that arrives without a colour. -/
def execute (table : Table) (key : Bytes) (slot : Nat) (length : UInt32) (now : UInt64) :
    Except Error (Color × Table) :=
  table.executeFrom key slot .green length now

/-- What the packet is told and the table after `Routine.hit`. -/
def hit (table : Table) (key : Bytes) (length : UInt32) (now : UInt64) : Except Error (Hit × Table) :=
  (Routine.hit key length now).attempt table

/-- The table after `Routine.configure`. -/
def configure (table : Table) (key : Bytes) (slot : Nat) (profile : Profile) : Except Error Table :=
  (Routine.configure key slot profile).after table

/-- The table after `Routine.reset`. -/
def reset (table : Table) (key : Bytes) (slot : Nat) : Except Error Table :=
  (Routine.reset key slot).after table

end Table

end TrafficMeter
