import TrafficMeter.Hex
import TrafficMeter.Tier

/-!
# Errors of meters, tables and pipelines

What can go wrong when meters are addressed, configured or written (`Error`, and `ConfigFault` for what a field
is refused for), and the wording of each case (`Error.message`).
-/

namespace TrafficMeter

/-- What a byte string with a fixed length stands for. -/
inductive Sized where
  /-- The raw form of a meter record. -/
  | record
  /-- The raw index of a meter in a store. -/
  | key
  /-- The raw value of a table entry. -/
  | entryValue
deriving DecidableEq, Repr

/-- The name of a byte string with a fixed length, as it appears in messages. -/
def Sized.name : Sized → String
  | record => "meter record"
  | key => "meter key"
  | entryValue => "entry value"

/-- What is wrong with a description, a record or a snapshot. -/
inductive ConfigFault where
  /-- The bucket `tier` holds `level` tokens, and only `capacity` fit into it. -/
  | overfull (tier : Tier) (level capacity : UInt64)
  /-- A store or table has no name. -/
  | emptyName
  /-- Two stores or tables have the name `name`. -/
  | duplicateName (name : String)
  /-- The store `store` has no meters. -/
  | noCapacity (store : String)
  /-- The table `table` has no meters in its entries. -/
  | noMeters (table : String)
  /-- There are `actual` records for the store `store` of `expected` meters. -/
  | recordCount (store : String) (expected actual : Nat)
  /-- The key of a saved entry of `table` is no byte string. -/
  | badKey (table : String) (error : Hex.Error)
  /-- The value of a saved entry of `table` is no byte string. -/
  | badValue (table : String) (error : Hex.Error)
deriving DecidableEq, Repr

namespace ConfigFault

/-- The path of the field that is at fault. -/
def field : ConfigFault → String
  | overfull tier _ _ => tier.levelName
  | emptyName => "name"
  | duplicateName name => name
  | noCapacity store => s!"{store}.capacity"
  | noMeters table => s!"{table}.meters"
  | recordCount store _ _ => s!"{store}.records"
  | badKey table _ => s!"{table}.key"
  | badValue table _ => s!"{table}.value"

/-- What is wrong with the field, in words. -/
def reason : ConfigFault → String
  | overfull _ level capacity => s!"{level} tokens exceed bucket capacity {capacity}"
  | emptyName => "must not be empty"
  | duplicateName _ => "duplicate name"
  | noCapacity _ => "must be at least 1"
  | noMeters _ => "must be at least 1"
  | recordCount _ expected actual => s!"expected {expected} records, got {actual}"
  | badKey _ error => error.message
  | badValue _ error => error.message

end ConfigFault

/-- Why an operation on meters was refused. -/
inductive Error where
  /-- The store `store` of `capacity` meters has no meter at `index`. -/
  | invalidIndex (store : String) (index : UInt32) (capacity : Nat)
  /-- The rate of `tier` needs more units in a period than a word can hold, with a timer of this resolution. -/
  | rateOverflow (tier : Tier) (rate resolution : UInt64)
  /-- The table `table` has no entry under `key`. -/
  | entryNotFound (table : String) (key : Bytes)
  /-- The entries of `table` have `meters` meters and none in `slot`. -/
  | invalidSlot (table : String) (slot : Nat) (meters : Nat)
  /-- The byte string `what` has `actual` bytes and should have `expected`. -/
  | invalidLength (what : Sized) (expected actual : Nat)
  /-- No store or table of the wanted kind has the name `name`. -/
  | unknownObject (name : String)
  /-- A description, record or snapshot is not acceptable. -/
  | invalidConfig (fault : ConfigFault)
deriving DecidableEq, Repr

namespace Error

/-- The wording of an error, with all of its parts. -/
def message : Error → String
  | invalidIndex store index capacity =>
    s!"Invalid index {index} for meter '{store}' (capacity {capacity})"
  | rateOverflow tier rate resolution =>
    s!"Cannot encode {tier.rateName}={rate} with timer resolution {resolution} ns"
  | entryNotFound table key => s!"Entry not found in table '{table}': key {Hex.format key}"
  | invalidSlot table slot meters =>
    s!"Table '{table}' has {meters} direct meter(s), slot {slot} requested"
  | invalidLength what expected actual =>
    s!"Invalid {what.name} length: expected {expected} bytes, got {actual}"
  | unknownObject name => s!"Unknown pipeline object '{name}'"
  | invalidConfig fault =>
    s!"Invalid pipeline configuration for {fault.field}: {fault.reason}"

/-- The error lies in a configuration and not in the way a meter is addressed. -/
def isConfigError : Error → Bool
  | rateOverflow .. => true
  | invalidConfig .. => true
  | _ => false

end Error

end TrafficMeter
