import TrafficMeter.Codec.Record
import TrafficMeter.Pipeline.Snapshot

/-!
# Snapshots in JSON

The fields under which a snapshot is written (`Snapshot.toJson`) and read (`Snapshot.ofJson?`). Names are the
keys of objects. Of a name that is repeated the last one counts.
-/

namespace TrafficMeter

/-- The JSON object that has the value `write value` under each name of `m`. -/
def OrderedMap.toJson {α : Type} (write : α → Json) (m : OrderedMap String α) : Json :=
  .ofMembers (m.toList.map fun (name, value) => (name, write value))

/-- Reads a map from the names of an object, each with what `read` makes of its value. Of a repeated name the
last value counts. -/
def OrderedMap.ofJson? {α : Type} (read : Json → Option α) (json : Json) :
    Option (OrderedMap String α) := do
  let members ← Document.members? json
  let bindings ← members.mapM fun (name, value) => (read value).map fun value => (name, value)
  return .ofList bindings

namespace SavedEntry

/-- The JSON object of `entry`. -/
def toJson (entry : SavedEntry) : Json :=
  .ofMembers [("key", .text entry.key), ("value", .text entry.value)]

/-- Reads a saved entry. Whether its texts are byte strings is not looked at. -/
def ofJson? (json : Json) : Option SavedEntry := do
  match ← Document.fields? ["key", "value"] json with
  | [key, value] => return { key := ← key.bind Document.text?, value := ← value.bind Document.text? }
  | _ => none

end SavedEntry

namespace Snapshot

/-- The JSON object of `snapshot`. -/
def toJson (snapshot : Snapshot) : Json :=
  .ofMembers
    [("meters", snapshot.stores.toJson fun records => .array (records.map Record.toJson)),
      ("tables", snapshot.tables.toJson fun entries => .array (entries.map SavedEntry.toJson)),
      ("stats", snapshot.tallies.toJson Tally.toJson)]

/-- Reads a snapshot. Every field may be missing. -/
def ofJson? (json : Json) : Option Snapshot := do
  match ← Document.fields? ["meters", "tables", "stats"] json with
  | [stores, tables, tallies] =>
    return {
      stores := ← Document.orDefault .empty
        (OrderedMap.ofJson? (Document.list? Record.ofJson?)) stores
      tables := ← Document.orDefault .empty
        (OrderedMap.ofJson? (Document.list? SavedEntry.ofJson?)) tables
      tallies := ← Document.orDefault .empty (OrderedMap.ofJson? Tally.ofJson?) tallies }
  | _ => none

end Snapshot

end TrafficMeter
