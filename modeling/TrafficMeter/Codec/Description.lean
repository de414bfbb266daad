import TrafficMeter.Json.Document
import TrafficMeter.Json.Printer
import TrafficMeter.Pipeline.Description

/-!
# Descriptions in documents

The fields under which a pipeline description is written (`Description.toJson`) and read
(`Description.ofDocument?`). The fields of a `Layout` stand among the fields of the table that it belongs to.
-/

namespace TrafficMeter

variable {α : Type} [Document α]

/-- The unit whose exact name `document` is. -/
def MeasureUnit.ofDocument? (document : α) : Option MeasureUnit :=
  (Document.variant? document).bind ofExactName?

namespace CounterKind

/-- The kind of counter whose position in `CounterKind.all` or whose exact name `key` is, as the key of a
mapping. -/
def ofKey? (key : α) : Option CounterKind :=
  match Document.kept? key with
  | some (.natural number) => all[number]?
  | some (.text name) => ofExactName? name
  | _ => none

/-- `value` says nothing about a kind of counter beyond its name: it is null or an empty mapping. -/
def isBare (value : α) : Bool :=
  match Document.view value with
  | .scalar reading => reading.kept == some .null
  | .mapping members => members.isEmpty
  | .list _ => false

/-- Reads a kind of counter after `document` was kept. The counter is absent if `document` is null. Its kind is
given by its exact name, or by the only key of a mapping. -/
def ofDocument? (document : α) : Option (Option CounterKind) :=
  match Document.view document with
  | .scalar reading =>
    match reading.kept with
    | some .null => some none
    | some (.text name) => (ofExactName? name).map some
    | _ => none
  | .mapping [(key, value)] => if isBare value then (ofKey? key).map some else none
  | _ => none

end CounterKind

namespace Layout

/-- The members of `layout` inside the object of its table. -/
def jsonMembers (layout : Layout) : List (String × Json) :=
  [("action_data_len", .word layout.actionDataLength),
    ("counter", (layout.counter.map fun kind => Json.text kind.name).getD .null),
    ("meters", .word layout.meters)]

/-- Reads a layout from the `members` of a mapping, after they were kept. A missing `counter` is no counter. -/
def ofMembers? (members : List (String × α)) : Option Layout := do
  let actionDataLength ← (← Document.field? members "action_data_len").bind Document.keptUInt64?
  let counter ← Document.orDefault none CounterKind.ofDocument? (← Document.field? members "counter")
  let meters ← (← Document.field? members "meters").bind Document.keptUInt64?
  return { actionDataLength, counter, meters }

end Layout

namespace StoreDescription

/-- The JSON object of `store`. -/
def toJson (store : StoreDescription) : Json :=
  .ofMembers
    [("name", .text store.name), ("capacity", .natural store.capacity.toNat), ("unit", .text store.unit.name)]

/-- Reads a store description. A missing `unit` is `bytes`. -/
def ofDocument? (document : α) : Option StoreDescription := do
  match ← Document.fields? ["name", "capacity", "unit"] document with
  | [name, capacity, unit] =>
    return {
      name := ← name.bind Document.text?
      capacity := ← capacity.bind Document.uint32?
      unit := ← Document.orDefault .bytes MeasureUnit.ofDocument? unit }
  | _ => none

end StoreDescription

namespace TableDescription

/-- The JSON object of `table`, with the members of its layout among its own. -/
def toJson (table : TableDescription) : Json :=
  .ofMembers
    ([("name", .text table.name)] ++ table.layout.jsonMembers ++ [("unit", .text table.unit.name)])

/-- Reads a table description. `document` must be a mapping, since the layout of a table is not one field.
Members other than `name` and `unit` are kept until the layout is read from them. -/
def ofDocument? (document : α) : Option TableDescription := do
  let members ← Document.members? document
  let name ← Document.field? members "name"
  let unit ← Document.field? members "unit"
  guard (members.all fun (key, value) => key = "name" || key = "unit" || Document.canKeep value)
  let layout ← Layout.ofMembers? members
  return {
    name := ← name.bind Document.text?
    layout
    unit := ← Document.orDefault .bytes MeasureUnit.ofDocument? unit }

end TableDescription

namespace Description

/-- The JSON object of `description`. -/
def toJson (description : Description) : Json :=
  .ofMembers
    [("timer_resolution_ns", .word description.resolution),
      ("meters", .array (description.stores.map StoreDescription.toJson)),
      ("tables", .array (description.tables.map TableDescription.toJson))]

/-- Reads a description, whether or not `Description.validate` accepts it. Every field may be missing. -/
def ofDocument? (document : α) : Option Description := do
  match ← Document.fields? ["timer_resolution_ns", "meters", "tables"] document with
  | [resolution, stores, tables] =>
    return {
      resolution := ← Document.orDefault 1 Document.uint64? resolution
      stores := ← Document.orDefault [] (Document.list? StoreDescription.ofDocument?) stores
      tables := ← Document.orDefault [] (Document.list? TableDescription.ofDocument?) tables }
  | _ => none

end Description

end TrafficMeter
