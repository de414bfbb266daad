import TrafficMeter.OrderedMap
import TrafficMeter.Pipeline.Description
import TrafficMeter.Store
import TrafficMeter.Table.Basic

/-!
# Pipelines

A `Pipeline` is the collection of the stores and tables of a description, each found by its name
(`Pipeline.store`, `Pipeline.table`). The names are fixed when the pipeline is built (`Pipeline.ofDescription`).
-/

namespace TrafficMeter

/-- The stores and tables of a packet pipeline, by name. -/
structure Pipeline where
  /-- The meter stores. -/
  stores : OrderedMap String Store := .empty
  /-- The tables. -/
  tables : OrderedMap String Table := .empty
deriving DecidableEq

namespace Pipeline

/-- The store that `description` asks for, all of its `description.capacity` meters unconfigured. -/
def storeOf (timer : Timer) (description : StoreDescription) : Store :=
  Store.create description.name description.capacity.toNat description.unit timer

/-- The table that `description` asks for, without entries. -/
def tableOf (timer : Timer) (description : TableDescription) : Table :=
  Table.create description.name description.layout description.unit timer

/-- The pipeline that `description` asks for, if `description.validate` accepts it. -/
def ofDescription (description : Description) : Except Error Pipeline := do
  description.validate
  let timer := Timer.ofResolution description.resolution
  return {
    stores := .ofList (description.stores.map fun store => (store.name, storeOf timer store))
    tables := .ofList (description.tables.map fun table => (table.name, tableOf timer table)) }

/-- The store `name`, which the pipeline must have. -/
def store (pipeline : Pipeline) (name : String) : Except Error Store :=
  match pipeline.stores.find? name with
  | some store => .ok store
  | none => .error (.unknownObject name)

/-- The table `name`, which the pipeline must have. -/
def table (pipeline : Pipeline) (name : String) : Except Error Table :=
  match pipeline.tables.find? name with
  | some table => .ok table
  | none => .error (.unknownObject name)

/-- `pipeline` with `store` in place of its store `name`, if it has one. -/
def putStore (pipeline : Pipeline) (name : String) (store : Store) : Pipeline :=
  { pipeline with stores := pipeline.stores.modify name fun _ => store }

/-- `pipeline` with `table` in place of its table `name`, if it has one. -/
def putTable (pipeline : Pipeline) (name : String) (table : Table) : Pipeline :=
  { pipeline with tables := pipeline.tables.modify name fun _ => table }

/-- Runs `routine` on the store `name` in place. -/
def onStore {α : Type} (name : String) (routine : Routine Store α) : Routine Pipeline α :=
  routine.onPart (fun pipeline => pipeline.store name) fun pipeline store => pipeline.putStore name store

/-- Runs `routine` on the table `name` in place. -/
def onTable {α : Type} (name : String) (routine : Routine Table α) : Routine Pipeline α :=
  routine.onPart (fun pipeline => pipeline.table name) fun pipeline table => pipeline.putTable name table

/-- The tallies of all stores and tables of `pipeline`, by name. A table has the last word if a store has its
name. -/
def tallies (pipeline : Pipeline) : OrderedMap String Tally :=
  .ofList ((pipeline.stores.mapValues fun _ store => store.tally).toList ++
    (pipeline.tables.mapValues fun _ table => table.tally).toList)

end Pipeline

end TrafficMeter
