import TrafficMeter.Proofs.Effect
import TrafficMeter.Proofs.OrderedMap

/-!
# Items of a snapshot

A snapshot is put back by three loops, one inside of another. They take one step after the other, and each step
is for one thing: the records of a store, a table that must be there, an entry, or a tally. `SnapshotItem` is such
a step as data, and `Snapshot.items` lists the steps of a snapshot. The loops do what the list says
(`Pipeline.restore_eq_forM`), and each item is applied as a whole or not at all (`perform_routine`). So
putting back a snapshot is applying its items until one is refused (`Pipeline.restore_eq_applyItems`).
-/

namespace TrafficMeter

/-- One step of putting a snapshot back. -/
inductive SnapshotItem where
  /-- Replace the records of a store. -/
  | records (store : String) (records : List Record)
  /-- Make sure that a table exists. -/
  | table (name : String)
  /-- Write an entry of a table. -/
  | entry (table : String) (entry : SavedEntry)
  /-- Set the tally of a store or table. -/
  | tally (name : String) (tally : Tally)
deriving DecidableEq, Repr

/-- The steps of `snapshot`: the stores by name, then the tables by name, each with its entries in the order of
their list, and then the tallies by name. -/
def Snapshot.items (snapshot : Snapshot) : List SnapshotItem :=
  (snapshot.stores.toList.map fun stored => .records stored.1 stored.2) ++
    (snapshot.tables.toList.flatMap fun saved => .table saved.1 :: saved.2.map (.entry saved.1)) ++
    snapshot.tallies.toList.map fun counted => .tally counted.1 counted.2

/-- What the step `item` does in place. -/
def SnapshotItem.routine (item : SnapshotItem) : Routine Pipeline Unit :=
  match item with
  | .records name given => Pipeline.onStore name (Store.Routine.restore given)
  | .table name => do
    let _ ← (← get).table name
  | .entry name saved => Pipeline.onTable name (Table.Routine.load name saved)
  | .tally name given => Pipeline.Routine.loadTally name given

namespace Pipeline

variable {pipeline : Pipeline} {name : String} {store : Store} {table : Table} {error : Error}

/-! ### Stores and tables in their places -/

/-- `pipeline.store name` succeeds exactly if a store is found under `name`. -/
theorem store_eq_ok_iff :
    pipeline.store name = .ok store ↔ pipeline.stores.find? name = some store := by
  rw [Pipeline.store]
  cases pipeline.stores.find? name <;> simp

/-- `pipeline.table name` succeeds exactly if a table is found under `name`. -/
theorem table_eq_ok_iff :
    pipeline.table name = .ok table ↔ pipeline.tables.find? name = some table := by
  rw [Pipeline.table]
  cases pipeline.tables.find? name <;> simp

theorem table_of_none (htable : pipeline.tables.find? name = none) :
    pipeline.table name = .error (.unknownObject name) := by
  rw [Pipeline.table, htable]

/-- Putting a `store` in its own place changes nothing. -/
theorem putStore_eq_self (hstore : pipeline.stores.find? name = some store) :
    pipeline.putStore name store = pipeline := by
  rw [putStore, OrderedMap.modify_eq_self hstore]

/-- Putting a `table` in its own place changes nothing. -/
theorem putTable_eq_self (htable : pipeline.tables.find? name = some table) :
    pipeline.putTable name table = pipeline := by
  rw [putTable, OrderedMap.modify_eq_self htable]

/-- After a table was replaced by `next`, this is found under its `name`. -/
theorem find?_putTable_self (htable : pipeline.tables.find? name = some table)
    (next : Table) : (pipeline.putTable name next).tables.find? name = some next := by
  rw [putTable, OrderedMap.find?_modify, if_pos rfl, htable, Option.map_some]

theorem table_putTable_self (htable : pipeline.tables.find? name = some table) (next : Table) :
    (pipeline.putTable name next).table name = .ok next :=
  table_eq_ok_iff.mpr (find?_putTable_self htable next)

/-- Of two tables that are put under one `name` the later one stays. -/
theorem putTable_putTable (pipeline : Pipeline) (name : String) (next last : Table) :
    (pipeline.putTable name next).putTable name last = pipeline.putTable name last := by
  simp only [putTable, OrderedMap.modify_modify]

section Places

variable {α : Type}

/-- A routine on the store `name` changes nothing else. -/
theorem perform_onStore (hstore : pipeline.store name = .ok store) (routine : Routine Store α) :
    (onStore name routine).perform pipeline =
      ((routine.perform store).1, pipeline.putStore name (routine.perform store).2) :=
  Routine.perform_onPart_of_ok (Pipeline.store · name) _ hstore routine

theorem perform_onStore_of_error (hstore : pipeline.store name = .error error) (routine : Routine Store α) :
    (onStore name routine).perform pipeline = (.error error, pipeline) :=
  Routine.perform_onPart_of_error (Pipeline.store · name) _ hstore routine

/-- A routine on the table `name` changes nothing else. -/
theorem perform_onTable (htable : pipeline.table name = .ok table) (routine : Routine Table α) :
    (onTable name routine).perform pipeline =
      ((routine.perform table).1, pipeline.putTable name (routine.perform table).2) :=
  Routine.perform_onPart_of_ok (Pipeline.table · name) _ htable routine

theorem perform_onTable_of_error (htable : pipeline.table name = .error error) (routine : Routine Table α) :
    (onTable name routine).perform pipeline = (.error error, pipeline) :=
  Routine.perform_onPart_of_error (Pipeline.table · name) _ htable routine

/-- An atomic `routine` on the store `name` leaves the pipeline alone if it fails. -/
theorem perform_onStore_eq_settle (hstore : pipeline.store name = .ok store) {routine : Routine Store α}
    (h : routine.Atomic) :
    (onStore name routine).perform pipeline =
      settle pipeline ((routine.attempt store).map fun result => (result.1, pipeline.putStore name result.2)) := by
  rw [perform_onStore hstore, h.perform_eq_settle]
  cases routine.attempt store with
  | ok result => rfl
  | error error => exact Prod.ext rfl (putStore_eq_self (store_eq_ok_iff.mp hstore))

/-- An atomic `routine` on the table `name` leaves the pipeline alone if it fails. -/
theorem perform_onTable_eq_settle (htable : pipeline.table name = .ok table) {routine : Routine Table α}
    (h : routine.Atomic) :
    (onTable name routine).perform pipeline =
      settle pipeline ((routine.attempt table).map fun result => (result.1, pipeline.putTable name result.2)) := by
  rw [perform_onTable htable, h.perform_eq_settle]
  cases routine.attempt table with
  | ok result => rfl
  | error error => exact Prod.ext rfl (putTable_eq_self (table_eq_ok_iff.mp htable))

end Places

/-! ### Items that are applied -/

/-- Applies one step of a snapshot to `pipeline`, or refuses it as a whole. -/
def applyItem (pipeline : Pipeline) : SnapshotItem → Except Error Pipeline
  | .records name records => do
    let store ← pipeline.store name
    let restored ← store.restore records
    return pipeline.putStore name restored
  | .table name => do
    let _ ← pipeline.table name
    return pipeline
  | .entry name entry => do
    let table ← pipeline.table name
    let key ← (Hex.parse entry.key).mapError fun error => .invalidConfig (.badKey name error)
    let value ← (Hex.parse entry.value).mapError fun error => .invalidConfig (.badValue name error)
    let updated ← table.update key value
    return pipeline.putTable name updated
  | .tally name tally =>
    match pipeline.stores.find? name, pipeline.tables.find? name with
    | some store, _ => .ok (pipeline.putStore name (store.loadTally tally))
    | none, some table => .ok (pipeline.putTable name (table.loadTally tally))
    | none, none => .error (.unknownObject name)

/-- Applies steps to `pipeline` until one is refused. The result is the pipeline that was reached, with the error
if there was one. -/
def applyItems (pipeline : Pipeline) : List SnapshotItem → Pipeline × Except Error Unit
  | [] => (pipeline, .ok ())
  | item :: rest =>
    match pipeline.applyItem item with
    | .ok applied => applied.applyItems rest
    | .error error => (pipeline, .error error)

/-- A `saved` entry is decoded to its end before any of it is written. -/
theorem atomic_load (name : String) (saved : SavedEntry) : (Table.Routine.load name saved).Atomic :=
  (Routine.readOnly_lift _).bind fun _ => (Routine.readOnly_lift _).bind fun _ => Table.atomic_update _ _

/-- The routine of an `item` does as a whole what the item says, or nothing. -/
theorem perform_routine (pipeline : Pipeline) (item : SnapshotItem) :
    item.routine.perform pipeline = settle pipeline ((pipeline.applyItem item).map fun next => ((), next)) := by
  -- The store or table is looked for first. If it is there, the routine on it is atomic.
  cases item with
  | records name given =>
    cases hstore : pipeline.store name with
    | error error =>
      rw [SnapshotItem.routine, perform_onStore_of_error hstore, applyItem, hstore]
      rfl
    | ok store =>
      rw [SnapshotItem.routine, perform_onStore_eq_settle hstore (Store.atomic_restore given), applyItem, hstore,
        ok_bind, Store.restore, Routine.after]
      cases (Store.Routine.restore given).attempt store <;> rfl
  | table name =>
    rw [SnapshotItem.routine, Routine.perform_get_bind, applyItem]
    cases htable : pipeline.table name <;> rfl
  | entry name saved =>
    cases htable : pipeline.table name with
    | error error =>
      rw [SnapshotItem.routine, perform_onTable_of_error htable, applyItem, htable]
      rfl
    | ok table =>
      rw [SnapshotItem.routine, perform_onTable_eq_settle htable (atomic_load name saved), applyItem, htable,
        ok_bind, Table.Routine.load]
      cases (Hex.parse saved.key).mapError fun error => Error.invalidConfig (.badKey name error) with
      | error error => rfl
      | ok key =>
        cases (Hex.parse saved.value).mapError fun error => Error.invalidConfig (.badValue name error) with
        | error error => rfl
        | ok value =>
          simp only [Routine.attempt_bind, Routine.attempt_lift, map_ok, ok_bind, Table.update, Routine.after]
          cases (Table.Routine.update key value).attempt table <;> rfl
  | tally name given =>
    -- Setting a tally cannot fail, so that no routine is broken off here.
    rw [SnapshotItem.routine, Routine.loadTally, Routine.perform_get_bind, applyItem]
    cases hstore : pipeline.stores.find? name with
    | some store => exact perform_onStore (store_eq_ok_iff.mpr hstore) _
    | none =>
      cases htable : pipeline.tables.find? name with
      | some table => exact perform_onTable (table_eq_ok_iff.mpr htable) _
      | none => rfl

/-- Performing the routines of `items` is applying them one after the other until one is refused. -/
theorem perform_forM_routine (pipeline : Pipeline) (items : List SnapshotItem) :
    (items.forM SnapshotItem.routine).perform pipeline = (pipeline.applyItems items).swap := by
  induction items generalizing pipeline with
  | nil => rfl
  | cons item rest ih =>
    have hitem := perform_routine pipeline item
    rw [applyItems]
    cases happly : pipeline.applyItem item with
    | error error =>
      rw [happly] at hitem
      exact Routine.perform_bind_of_error hitem
    | ok applied =>
      rw [happly] at hitem
      exact (Routine.perform_bind_of_ok hitem).trans (ih applied)

/-! ### The three loops -/

/-- A loop on a table that is there goes through the pipeline once for each step of its `body`. -/
theorem perform_onTable_forM {α : Type} (body : α → Routine Table Unit) (list : List α)
    (htable : pipeline.table name = .ok table) :
    (onTable name (list.forM body)).perform pipeline =
      (list.forM fun a => onTable name (body a)).perform pipeline := by
  induction list generalizing pipeline table with
  | nil => exact (perform_onTable htable _).trans (Prod.ext rfl (putTable_eq_self (table_eq_ok_iff.mp htable)))
  | cons head rest ih =>
    -- If the first step fails, both loops end with the table that it reached. If not, the second loop finds this
    -- table in the pipeline again.
    have hhead := perform_onTable htable (body head)
    rw [perform_onTable htable]
    rcases hbody : (body head).perform table with ⟨error | answer, reached⟩
    · have hloop : ((head :: rest).forM body).perform table = (.error error, reached) :=
        Routine.perform_bind_of_error hbody
      rw [hbody] at hhead
      rw [hloop]
      exact (Routine.perform_bind_of_error hhead).symm
    · have hloop : ((head :: rest).forM body).perform table = (rest.forM body).perform reached :=
        Routine.perform_bind_of_ok hbody
      have hreached : (pipeline.putTable name reached).table name = .ok reached :=
        table_putTable_self (table_eq_ok_iff.mp htable) reached
      rw [hbody] at hhead
      have hsteps : ((head :: rest).forM fun a => onTable name (body a)).perform pipeline =
          (rest.forM fun a => onTable name (body a)).perform (pipeline.putTable name reached) :=
        Routine.perform_bind_of_ok hhead
      rw [hloop, hsteps, ← ih hreached, perform_onTable hreached, putTable_putTable]

/-- The inner loop over the `entries` of a table comes after the table was looked for. -/
theorem onTable_forM_load (name : String) (entries : List SavedEntry) :
    onTable name (entries.forM (Table.Routine.load name)) =
      (SnapshotItem.table name).routine >>= fun _ =>
        entries.forM fun saved => (SnapshotItem.entry name saved).routine := by
  refine Routine.ext fun pipeline => ?_
  have hlook := perform_routine pipeline (.table name)
  rw [applyItem] at hlook
  cases htable : pipeline.table name with
  | error error =>
    rw [htable] at hlook
    rw [perform_onTable_of_error htable]
    exact (Routine.perform_bind_of_error hlook).symm
  | ok table =>
    rw [htable] at hlook
    rw [perform_onTable_forM _ _ htable, Routine.perform_bind_of_ok hlook]
    rfl

/-- The loop over `tables` takes one step for each table and one for each of its entries. -/
theorem forM_onTable_eq (tables : List (String × List SavedEntry)) :
    (tables.forM fun saved => onTable saved.1 (saved.2.forM (Table.Routine.load saved.1))) =
      (tables.flatMap fun saved => SnapshotItem.table saved.1 :: saved.2.map (.entry saved.1)).forM
        SnapshotItem.routine := by
  induction tables with
  | nil => rfl
  | cons saved rest ih =>
    simp only [List.forM_eq_forM, List.forM_cons, List.flatMap_cons, List.cons_append, List.forM_append,
      List.forM_map] at ih ⊢
    rw [← ih, ← List.forM_eq_forM, onTable_forM_load, bind_assoc]
    rfl

/-- The three loops of `Routine.restore` take the steps that `Snapshot.items` lists, in this order. -/
theorem restore_eq_forM (snapshot : Snapshot) :
    Routine.restore snapshot = snapshot.items.forM SnapshotItem.routine := by
  have htables := forM_onTable_eq snapshot.tables.toList
  simp only [List.forM_eq_forM] at htables
  simp only [Routine.restore, Snapshot.items, List.forM_eq_forM, List.forM_append, List.forM_map, bind_assoc,
    htables]
  rfl

/-- Putting `snapshot` back is applying its items until one is refused. -/
theorem restore_eq_applyItems (pipeline : Pipeline) (snapshot : Snapshot) :
    pipeline.restore snapshot = pipeline.applyItems snapshot.items := by
  rw [restore, restore_eq_forM, perform_forM_routine, Prod.swap_swap]

/-! ### Operations of a pipeline -/

theorem perform_store (hstore : pipeline.store name = .ok store) (operation : Store.Operation) :
    pipeline.perform (.store name operation) =
      ((store.perform operation).1, pipeline.putStore name (store.perform operation).2) :=
  perform_onStore hstore _

/-- An operation that the store `name` refuses leaves the pipeline alone. -/
theorem perform_store_eq_settle (hstore : pipeline.store name = .ok store) (operation : Store.Operation) :
    pipeline.perform (.store name operation) =
      settle pipeline ((store.attempt operation).map fun result =>
        (result.1, pipeline.putStore name result.2)) := by
  rw [← store.attempt_routine]
  exact perform_onStore_eq_settle hstore (Store.atomic_routine operation)

theorem perform_store_of_error (hstore : pipeline.store name = .error error) (operation : Store.Operation) :
    pipeline.perform (.store name operation) = (.error error, pipeline) :=
  perform_onStore_of_error hstore _

theorem perform_table (htable : pipeline.table name = .ok table) (operation : Table.Operation) :
    pipeline.perform (.table name operation) =
      ((table.perform operation).1, pipeline.putTable name (table.perform operation).2) :=
  perform_onTable htable _

/-- An operation that the table `name` refuses leaves the pipeline alone. -/
theorem perform_table_eq_settle (htable : pipeline.table name = .ok table) (operation : Table.Operation) :
    pipeline.perform (.table name operation) =
      settle pipeline ((table.attempt operation).map fun result =>
        (result.1, pipeline.putTable name result.2)) := by
  rw [← table.attempt_routine]
  exact perform_onTable_eq_settle htable (Table.atomic_routine operation)

theorem perform_table_of_error (htable : pipeline.table name = .error error) (operation : Table.Operation) :
    pipeline.perform (.table name operation) = (.error error, pipeline) :=
  perform_onTable_of_error htable _

theorem perform_restore (pipeline : Pipeline) (snapshot : Snapshot) :
    pipeline.perform (.restore snapshot) =
      ((pipeline.restore snapshot).2.map fun _ => .done, (pipeline.restore snapshot).1) :=
  Routine.perform_map _ _ _

/-- What a property says of `pipeline`, and of `pipeline` with another store, with another table or with a
snapshot put back, it says of `pipeline` after `operation`. -/
theorem perform_preserves {P : Pipeline → Prop} {operation : Operation} (h : P pipeline)
    (hstore : ∀ name request store, operation = .store name request → pipeline.stores.find? name = some store →
      P (pipeline.putStore name (store.perform request).2))
    (htable : ∀ name request table, operation = .table name request → pipeline.tables.find? name = some table →
      P (pipeline.putTable name (table.perform request).2))
    (hrestore : ∀ snapshot, operation = .restore snapshot → P (pipeline.restore snapshot).1) :
    P (pipeline.perform operation).2 := by
  cases operation with
  | store name request =>
    cases hfound : pipeline.store name with
    | error error => rwa [perform_store_of_error hfound]
    | ok store =>
      rw [perform_store hfound]
      exact hstore name request store rfl (store_eq_ok_iff.mp hfound)
  | table name request =>
    cases hfound : pipeline.table name with
    | error error => rwa [perform_table_of_error hfound]
    | ok table =>
      rw [perform_table hfound]
      exact htable name request table rfl (table_eq_ok_iff.mp hfound)
  | snapshot => exact h
  | restore snapshot =>
    rw [perform_restore]
    exact hrestore snapshot rfl

end Pipeline

end TrafficMeter
