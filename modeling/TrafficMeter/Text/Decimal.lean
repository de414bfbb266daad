/-!
# Decimal numbers

Bounded unsigned numbers in decimal: how they are written (`Text.decimal`), and how they are read from left to
right, where the first fault decides the error (`Text.readNumber`).
-/

namespace TrafficMeter.Text

/-- Why a text is no number of the wanted range. -/
inductive NumberError where
  /-- There is no character to read. -/
  | empty
  /-- A character is no decimal digit, or there is only a sign. -/
  | invalidDigit
  /-- The digits read so far already exceed the range. -/
  | tooLarge
deriving DecidableEq, Repr

/-- The wording of a number error. -/
def NumberError.message : NumberError → String
  | .empty => "cannot parse integer from empty string"
  | .invalidDigit => "invalid digit found in string"
  | .tooLarge => "number too large to fit in target type"

/-- The value of `c` as an ASCII digit in the given `base`, up to base sixteen. -/
def digit? (base : Nat) (c : Char) : Option Nat :=
  let value :=
    if c.isDigit then some (c.toNat - '0'.toNat)
    else if 'a' ≤ c ∧ c ≤ 'f' then some (c.toNat - 'a'.toNat + 10)
    else if 'A' ≤ c ∧ c ≤ 'F' then some (c.toNat - 'A'.toNat + 10)
    else none
  value.filter (· < base)

/-- `readDigits base limit value digits` appends `digits` to `value`, which must stay below `limit`. The first
digit that is none or leads beyond `limit` decides the error. -/
def readDigits (base limit : Nat) : Nat → List Char → Except NumberError Nat
  | value, [] => .ok value
  | value, c :: rest =>
    match digit? base c with
    | none => .error .invalidDigit
    | some digit =>
      if value * base + digit < limit then readDigits base limit (value * base + digit) rest
      else .error .tooLarge

/-- Reads a decimal number below `limit`: one optional plus sign and at least one digit. -/
def readNumber (limit : Nat) : List Char → Except NumberError Nat
  | [] => .error .empty
  | ['+'] => .error .invalidDigit
  | '+' :: digits => readDigits 10 limit 0 digits
  | digits => readDigits 10 limit 0 digits

/-- `n` in decimal digits, without leading zeros. -/
def decimal (n : Nat) : List Char :=
  Nat.toDigits 10 n

end TrafficMeter.Text
