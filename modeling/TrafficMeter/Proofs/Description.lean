import TrafficMeter.Pipeline.Basic
import TrafficMeter.Proofs.OrderedMap
import TrafficMeter.Proofs.Outcome

/-!
# Acceptable descriptions and their pipelines

A description is accepted exactly if its names are distinct and not empty and nothing in it has no meters
(`validate_eq_ok_iff`). Since names are distinct, a name stands for at most one store or table, and the
pipeline of the description has the store or table that it stands for, as new
(`find?_stores_of_ofDescription`, `find?_tables_of_ofDescription`).
-/

namespace TrafficMeter

namespace Description

/-- `names` pass the check exactly if none is empty and each differs from those before it and from those `seen`.
-/
theorem checkNames_eq_ok_iff {seen names : List String} :
    checkNames seen names = .ok () ↔
      "" ∉ names ∧ names.Nodup ∧ ∀ name ∈ names, name ∉ seen := by
  induction names generalizing seen with
  | nil => simp [checkNames]
  | cons name rest ih =>
    rw [checkNames]
    split
    next hempty => simp [hempty]
    next hempty =>
      split
      next hseen => simp [hseen]
      next hseen =>
        -- The name joins those seen, so that a later occurrence of it is caught there.
        rw [ih]
        simp only [List.mem_cons, List.nodup_cons, not_or, forall_eq_or_imp]
        grind

/-- A `description` is accepted exactly if its names are distinct and not empty, every store has a meter and
every table has a meter in its entries. -/
theorem validate_eq_ok_iff {description : Description} :
    description.validate = .ok () ↔
      "" ∉ description.names ∧ description.names.Nodup ∧
        (∀ store ∈ description.stores, store.capacity ≠ 0) ∧
          ∀ table ∈ description.tables, table.layout.meters ≠ 0 := by
  -- Each of the three checks fails exactly if one of the conditions does, and the first failure decides.
  have hnames : checkNames [] description.names = .ok () ↔
      "" ∉ description.names ∧ description.names.Nodup := by
    simp [checkNames_eq_ok_iff]
  have hstores := List.find?_eq_none (p := fun store : StoreDescription => decide (store.capacity = 0))
    (l := description.stores)
  have htables := List.find?_eq_none (p := fun table : TableDescription => decide (table.layout.meters = 0))
    (l := description.tables)
  simp only [decide_eq_true_eq] at hstores htables
  rw [← and_assoc, ← hnames, ← hstores, ← htables, validate]
  cases checkNames [] description.names with
  | error error => simp
  | ok =>
    cases description.stores.find? fun store => store.capacity = 0 <;>
      cases description.tables.find? fun table => table.layout.meters = 0 <;> simp

/-- The described store with this `name`. -/
def store? (description : Description) (name : String) : Option StoreDescription :=
  description.stores.find? fun store => store.name = name

/-- The described table with this `name`. -/
def table? (description : Description) (name : String) : Option TableDescription :=
  description.tables.find? fun table => table.name = name

/-- The `name` of a described store is one of the names of stores. -/
theorem mem_map_name_of_store? {description : Description} {name : String} {store : StoreDescription}
    (h : description.store? name = some store) : name ∈ description.stores.map StoreDescription.name := by
  have hname : store.name = name := by simpa using List.find?_some h
  exact List.mem_map.mpr ⟨store, List.mem_of_find?_eq_some h, hname⟩

/-- The `name` of a described table is one of the names of tables. -/
theorem mem_map_name_of_table? {description : Description} {name : String} {table : TableDescription}
    (h : description.table? name = some table) : name ∈ description.tables.map TableDescription.name := by
  have hname : table.name = name := by simpa using List.find?_some h
  exact List.mem_map.mpr ⟨table, List.mem_of_find?_eq_some h, hname⟩

/-- The timer for which the rates in a pipeline of this `description` are encoded. -/
def timer (description : Description) : Timer :=
  Timer.ofResolution description.resolution

/-- A small description: a store `m` of two meters and a table `t` whose entries have a meter, a packet
counter and two bytes of action data. -/
def storeAndTable : Description where
  stores := [{ name := "m", capacity := 2 }]
  tables := [{ name := "t", layout := { actionDataLength := 2, counter := some .packets, meters := 1 } }]

end Description

namespace Pipeline

variable {description : Description} {start : Pipeline}

/-- A pipeline is built exactly from a `description` that `validate` accepts. -/
theorem ofDescription_eq_ok_iff :
    ofDescription description = .ok start ↔ description.validate = .ok () ∧
      start =
        { stores :=
            .ofList (description.stores.map fun store =>
              (store.name, storeOf description.timer store))
          tables :=
            .ofList (description.tables.map fun table =>
              (table.name, tableOf description.timer table)) } := by
  cases hvalid : description.validate <;> simp [ofDescription, hvalid, Description.timer, eq_comm]

/-- A new pipeline has the stores of its `description` under their names. -/
theorem find?_stores_of_ofDescription (h : ofDescription description = .ok start) (name : String) :
    start.stores.find? name = (description.store? name).map (storeOf description.timer) := by
  obtain ⟨hvalid, rfl⟩ := ofDescription_eq_ok_iff.mp h
  have hnodup := List.Nodup.of_append_left (Description.validate_eq_ok_iff.mp hvalid).2.1
  rw [OrderedMap.find?_ofList (by simpa [Function.comp_def] using hnodup), List.find?_map, Option.map_map]
  rfl

/-- A new pipeline has the tables of its `description` under their names. -/
theorem find?_tables_of_ofDescription (h : ofDescription description = .ok start) (name : String) :
    start.tables.find? name = (description.table? name).map (tableOf description.timer) := by
  obtain ⟨hvalid, rfl⟩ := ofDescription_eq_ok_iff.mp h
  have hnodup := List.Nodup.of_append_right (Description.validate_eq_ok_iff.mp hvalid).2.1
  rw [OrderedMap.find?_ofList (by simpa [Function.comp_def] using hnodup), List.find?_map, Option.map_map]
  rfl

end Pipeline

end TrafficMeter
