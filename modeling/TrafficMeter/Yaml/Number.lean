import TrafficMeter.Document
import TrafficMeter.Json.Numeral

/-!
# YAML numbers

An integer is written in decimal without leading zeros, or with the mark of another base (`integerBelow?`). Other
numbers have a point or an exponent, or are one of the words for what is no finite number (`isFloat`).
-/

namespace TrafficMeter.Yaml

/-- The number below `limit` that digits in this `base` stand for. -/
def digitsBelow? (base limit : Nat) : List Char → Option Nat
  | [] => none
  | digits => (Text.readDigits base limit 0 digits).toOption

/-- The number below `limit` that an integer without a sign stands for. -/
def integerBelow? (limit : Nat) : List Char → Option Nat
  | '0' :: 'x' :: digits => digitsBelow? 16 limit digits
  | '0' :: 'o' :: digits => digitsBelow? 8 limit digits
  | '0' :: 'b' :: digits => digitsBelow? 2 limit digits
  | ['0'] => some 0
  | '0' :: _ => none
  | digits => digitsBelow? 10 limit digits

/-- The number below `limit` that an integer without a minus sign stands for. -/
def naturalBelow? (limit : Nat) : List Char → Option Nat
  | '+' :: digits => integerBelow? limit digits
  | digits => integerBelow? limit digits

/-- The number up to `limit` whose negative an integer with a minus sign stands for. -/
def negatedUpTo? (limit : Nat) : List Char → Option Nat
  | '-' :: digits => integerBelow? (limit + 1) digits
  | _ => none

/-- What the integer `text` is after it was kept, or `none` for what is no integer. One of more than 64 and at
most 128 bits cannot be kept, because it is neither a word nor taken for a text. -/
def keptInteger? (text : List Char) : Option (Option Kept) :=
  match naturalBelow? UInt64.size text, negatedUpTo? (Nat.pow 2 63) text with
  | some value, _ => some (some (.natural value))
  | none, some 0 => some (some .signedZero)
  | none, some _ => some (some .other)
  | none, none =>
    if (naturalBelow? (Nat.pow 2 128) text).isSome ∨ (negatedUpTo? (Nat.pow 2 127) text).isSome then some none
    else none

/-- The `text`, which has no sign, is a decimal number within double precision. -/
def isDecimal (text : List Char) : Bool :=
  let (integer, rest) := text.span Char.isDigit
  let (fraction, rest) := match rest with
    | '.' :: rest => rest.span Char.isDigit
    | _ => ([], rest)
  let digits := integer ++ fraction
  match Json.Numeral.exponent? rest with
  | some exponent =>
    !digits.isEmpty && Double.isFinite (Nat.ofDigitChars 10 digits 0) (exponent - fraction.length)
  | none => false

/-- The words for what is no number. -/
def notNumbers : List String :=
  [".nan", ".NaN", ".NAN"]

/-- The words for an infinite number. -/
def infinities : List String :=
  [".inf", ".Inf", ".INF"]

/-- The `text` is a number, with a fraction or without. -/
def isFloat (text : String) : Bool :=
  let unsigned := match text.toList with
    | '+' :: rest => rest
    | '-' :: rest => rest
    | rest => rest
  infinities.contains (String.ofList unsigned) || notNumbers.contains text || isDecimal unsigned

end TrafficMeter.Yaml
