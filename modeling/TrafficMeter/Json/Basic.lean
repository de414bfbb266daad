/-!
# JSON values

A JSON text stands for a tree of values (`Json`). Only unsigned integers are of use here, so they are kept as
numbers and every other numeral is kept as it is written.
-/

namespace TrafficMeter

/-- What a string literal stands for: a text, or nothing if one of its escapes is half of a surrogate pair
without the other half. -/
abbrev Literal := Option String

/-- A JSON value. The members of an object are kept in order and may have the same key. -/
inductive Json where
  /-- The value `null`. -/
  | null
  /-- The value `true` or `false`. -/
  | bool (value : Bool)
  /-- A numeral of digits alone. -/
  | natural (value : Nat)
  /-- A numeral with a sign, a fraction or an exponent. -/
  | decimal (numeral : String)
  /-- A string. -/
  | string (text : Literal)
  /-- An array. -/
  | array (items : List Json)
  /-- An object. -/
  | object (members : List (Literal × Json))
deriving Inhabited, Repr

namespace Json

/-- The string value of `text`. -/
def text (text : String) : Json :=
  .string (some text)

/-- The value of a 64-bit word, as a `natural`. -/
def word (value : UInt64) : Json :=
  .natural value.toNat

/-- The object with the given `members`, in order. -/
def ofMembers (members : List (String × Json)) : Json :=
  .object (members.map fun (key, value) => (some key, value))

end Json

end TrafficMeter
