import TrafficMeter.Document
import TrafficMeter.Json.Parser

/-!
# JSON values as documents

A record may be written as a list, and one of several alternatives as an object that maps its name to `null`.
-/

namespace TrafficMeter.Json

/-- What the numeral `value` is after it was kept. One that is no word is taken for a number of double precision,
and cannot be kept if it is too large for that. -/
def keptNatural (value : Nat) : Option Kept :=
  if value < UInt64.size then some (.natural value)
  else if Numeral.exceedsDouble { integer := Text.decimal value } then none
  else some .other

/-- What any other `numeral` is after it was kept. It cannot be kept if it is too large for double precision. -/
def keptDecimal (numeral : String) : Option Kept :=
  if (Numeral.read? numeral.toList).any Numeral.exceedsDouble then none else some .other

/-- What a JSON value looks like from outside. The keys of an object are its `string` values. -/
def view : Json → View Json
  | .null => .scalar { kept := some .null }
  | .bool _ => .scalar {}
  | .natural value => .scalar { natural := some value, kept := keptNatural value }
  | .decimal numeral => .scalar { kept := keptDecimal numeral }
  | .string text => .scalar { text, kept := text.map .text }
  | .array items => .list items
  | .object members => .mapping (members.map fun (key, value) => (.string key, value))

/-- The name by which a value selects one of several alternatives: a string, or the only key of an object whose
value is `null`. -/
def variant? : Json → Option String
  | .string name => name
  | .object [(name, .null)] => name
  | _ => none

/-- `canKeepWithin depth value` holds if at most `depth` collections of `value` are inside each other and all of
its strings and numerals can be read. -/
def canKeepWithin : Nat → Json → Bool
  | 0, .array _ => false
  | 0, .object _ => false
  | depth + 1, .array items => items.all fun item => canKeepWithin depth item
  | depth + 1, .object members =>
    members.all fun (key, value) => key.isSome && canKeepWithin depth value
  | _, .string text => text.isSome
  | _, .natural value => (keptNatural value).isSome
  | _, .decimal numeral => (keptDecimal numeral).isSome
  | _, _ => true

/-- How many collections may be inside each other in a value that is kept. -/
def keptDepth : Nat := 124

instance : Document Json where
  view := view
  variant? := variant?
  listsRecords := true
  canKeep := canKeepWithin keptDepth

end TrafficMeter.Json
