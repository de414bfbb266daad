import TrafficMeter.MeasureUnit
import TrafficMeter.Profile
import TrafficMeter.Record.Bytes
import TrafficMeter.Routine
import TrafficMeter.Tally

/-!
# Meter stores

A `Store` is an array of meters that are addressed by index. Its size never changes. What changes a store is a
routine of `Store.Routine`, which works on the store in place. The function of the same name in `Store` gives the
store after the routine as a value, or the error of the routine.
-/

namespace TrafficMeter

/-- An array of meters with a common unit, and the tally of the colours that they gave. -/
structure Store where
  /-- The name of the store. -/
  name : String
  /-- The unit in which all of its meters count. -/
  unit : MeasureUnit
  /-- The timer for which rates are encoded. -/
  timer : Timer
  /-- The meters, by index. -/
  records : List Record
  /-- The colours given so far. -/
  tally : Tally := {}
deriving DecidableEq, Repr

namespace Store

/-- The store `name` with `capacity` unconfigured meters. -/
def create (name : String) (capacity : Nat) (unit : MeasureUnit) (timer : Timer) : Store :=
  { name, unit, timer, records := List.replicate capacity {} }

/-- The number of meters of `store`. -/
def capacity (store : Store) : Nat :=
  store.records.length

/-- The meter at `index`, which must be below `store.capacity`. -/
def read (store : Store) (index : UInt32) : Except Error Record :=
  match store.records[index.toNat]? with
  | some record => .ok record
  | none => .error (.invalidIndex store.name index store.capacity)

/-- `store` with `record` as its meter at `index`. -/
def put (store : Store) (index : UInt32) (record : Record) : Store :=
  { store with records := store.records.set index.toNat record }

/-- The raw form of `index`: four bytes. -/
def keyOfIndex (index : UInt32) : Bytes :=
  Bytes.ofUInt32 index

/-- The index that the raw key `key` stands for. It must have four bytes. -/
def indexOfKey (key : Bytes) : Except Error UInt32 :=
  if key.length = 4 then .ok (key.uint32At 0)
  else .error (.invalidLength .key 4 key.length)

/-- The raw form of the meter under the raw key `key`. -/
def readValue (store : Store) (key : Bytes) : Except Error Bytes := do
  let index ← indexOfKey key
  let record ← store.read index
  return record.toBytes

/-- Checks that `records` can replace the meters of `store`: there are as many of them, and none is overfull. -/
def checkRecords (store : Store) (records : List Record) : Except Error Unit := do
  if records.length ≠ store.capacity then
    throw (.invalidConfig (.recordCount store.name store.capacity records.length))
  records.forM Record.validate

/-- `store` with `tally` as its tally. -/
def loadTally (store : Store) (tally : Tally) : Store :=
  { store with tally }

/-! ### Routines -/

namespace Routine

/-- Marks a packet of `size` tokens that arrives with the colour `incoming` on the meter at `index`, outside of
the tally. -/
def markFrom (index : UInt32) (incoming : Color) (size now : UInt64) : Routine Store Color := do
  let record ← (← get).read index
  let (color, marked) := record.markFrom incoming size now
  modify (·.put index marked)
  return color

/-- Meters a packet of `length` bytes that arrives with the colour `incoming`: marks it at `index` and counts its
colour. -/
def executeFrom (index : UInt32) (incoming : Color) (length : UInt32) (now : UInt64) : Routine Store Color := do
  let color ← markFrom index incoming ((← get).unit.size length) now
  modify fun store => { store with tally := store.tally.add color }
  return color

/-- Gives the meter at `index` the profile `profile` and full buckets. The index is looked at before the rates
are encoded. -/
def configure (index : UInt32) (profile : Profile) : Routine Store Unit := do
  let _ ← (← get).read index
  let record ← profile.toRecord (← get).timer
  modify (·.put index record)

/-- Makes the meter at `index` unconfigured. -/
def reset (index : UInt32) : Routine Store Unit := do
  let _ ← (← get).read index
  modify (·.put index {})

/-- Replaces the meter under the raw key `key` by the raw record `value`. -/
def writeValue (key value : Bytes) : Routine Store Unit := do
  let index ← indexOfKey key
  let _ ← (← get).read index
  let record ← Record.ofBytes value
  modify (·.put index record)

/-- Replaces the meters by `records`, one after the other. Before the first one is written, all of `records` is
checked. -/
def restore (records : List Record) : Routine Store Unit := do
  (← get).checkRecords records
  records.zipIdx.forM fun (record, position) =>
    modify fun store => { store with records := store.records.set position record }

end Routine

/-! ### Stores after routines -/

/-- The colour and the store after `Routine.markFrom`. -/
def markFrom (store : Store) (index : UInt32) (incoming : Color) (size now : UInt64) :
    Except Error (Color × Store) :=
  (Routine.markFrom index incoming size now).attempt store

/-- The colour and the store after `Routine.markFrom` for a packet that arrives without a colour. -/
def mark (store : Store) (index : UInt32) (size now : UInt64) : Except Error (Color × Store) :=
  store.markFrom index .green size now

/-- The colour and the store after `Routine.executeFrom`. -/
def executeFrom (store : Store) (index : UInt32) (incoming : Color) (length : UInt32) (now : UInt64) :
    Except Error (Color × Store) :=
  (Routine.executeFrom index incoming length now).attempt store

/-- The colour and the store after `Routine.executeFrom` for a packet that arrives without a colour. -/
def execute (store : Store) (index : UInt32) (length : UInt32) (now : UInt64) :
    Except Error (Color × Store) :=
  store.executeFrom index .green length now

/-- The store after `Routine.configure`. -/
def configure (store : Store) (index : UInt32) (profile : Profile) : Except Error Store :=
  (Routine.configure index profile).after store

/-- The store after `Routine.reset`. -/
def reset (store : Store) (index : UInt32) : Except Error Store :=
  (Routine.reset index).after store

/-- The store after `Routine.writeValue`. -/
def writeValue (store : Store) (key value : Bytes) : Except Error Store :=
  (Routine.writeValue key value).after store

/-- The store after `Routine.restore`. -/
def restore (store : Store) (records : List Record) : Except Error Store :=
  (Routine.restore records).after store

end Store

end TrafficMeter
