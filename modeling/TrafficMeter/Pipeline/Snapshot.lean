import TrafficMeter.Pipeline.Basic

/-!
# Snapshots

A `Snapshot` holds everything about a pipeline that changes: the records of its stores, the entries of its tables
and all tallies. Putting it back (`Pipeline.Routine.restore`) is a routine of three loops, over the stores, over
the tables with their entries, and over the tallies. The first error ends it, and what was written before stays
written.
-/

namespace TrafficMeter

/-- A table entry in a snapshot, both parts in hexadecimal text. -/
structure SavedEntry where
  /-- The key. -/
  key : String
  /-- The raw value. -/
  value : String
deriving DecidableEq, Repr

/-- The changing part of a pipeline. -/
structure Snapshot where
  /-- The records of each store. -/
  stores : OrderedMap String (List Record) := .empty
  /-- The entries of each table. -/
  tables : OrderedMap String (List SavedEntry) := .empty
  /-- The tally of each store and table. -/
  tallies : OrderedMap String Tally := .empty
deriving DecidableEq

/-- Writes `saved` into a table, which its errors call `name`. The key is parsed before the value. -/
def Table.Routine.load (name : String) (saved : SavedEntry) : Routine Table Unit := do
  let key ← (Hex.parse saved.key).mapError fun error => Error.invalidConfig (.badKey name error)
  let value ← (Hex.parse saved.value).mapError fun error => Error.invalidConfig (.badValue name error)
  update key value

namespace Pipeline

/-- The changing part of `pipeline` as it stands. -/
def snapshot (pipeline : Pipeline) : Snapshot :=
  { stores := pipeline.stores.mapValues fun _ store => store.records
    tables := pipeline.tables.mapValues fun _ table =>
      table.dump.map fun (key, value) => { key := Hex.format key, value := Hex.format value }
    tallies := pipeline.tallies }

/-- Sets the tally of the store `name`, or of the table `name` if there is no such store. -/
def Routine.loadTally (name : String) (tally : Tally) : Routine Pipeline Unit := do
  let pipeline ← get
  match pipeline.stores.find? name, pipeline.tables.find? name with
  | some _, _ => onStore name (modify (·.loadTally tally))
  | none, some _ => onTable name (modify (·.loadTally tally))
  | none, none => throw (.unknownObject name)

/-- Puts `snapshot` back: first the records of each store, then the entries of each table in the order of their
list, then each tally, always in name order. A table is looked for even if it has no entries. -/
def Routine.restore (snapshot : Snapshot) : Routine Pipeline Unit := do
  snapshot.stores.toList.forM fun (name, records) => onStore name (Store.Routine.restore records)
  snapshot.tables.toList.forM fun (name, entries) => onTable name (entries.forM (Table.Routine.load name))
  snapshot.tallies.toList.forM fun (name, tally) => Routine.loadTally name tally

/-- The pipeline that `Routine.restore` reaches, and the error that ended it if there was one. -/
def restore (pipeline : Pipeline) (snapshot : Snapshot) : Pipeline × Except Error Unit :=
  ((Routine.restore snapshot).perform pipeline).swap

end Pipeline

end TrafficMeter
