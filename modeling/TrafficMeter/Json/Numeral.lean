import TrafficMeter.Double
import TrafficMeter.Json.Basic
import TrafficMeter.Text.Decimal

/-!
# JSON numerals

The grammar of numerals (`Numeral.read?`): an optional minus sign, an integer without leading zeros, an optional
fraction and an optional exponent. A numeral stands for a number of double precision unless it is an integer of
one word, and may be too large for that (`Numeral.exceedsDouble`).
-/

namespace TrafficMeter.Json

/-- The parts of a numeral without its sign. -/
structure Numeral where
  /-- The digits before the point. -/
  integer : List Char
  /-- The digits after the point. -/
  fraction : List Char := []
  /-- The exponent of ten. -/
  exponent : Int := 0
deriving DecidableEq, Repr

namespace Numeral

/-- Splits `text` after the digits that it starts with. -/
def digits (text : List Char) : List Char × List Char :=
  text.span Char.isDigit

/-- A list of digits is an integer without leading zeros. -/
def isInteger : List Char → Bool
  | [] => false
  | ['0'] => true
  | '0' :: _ => false
  | _ => true

/-- The exponent of ten that a text such as `e-7` consists of, `0` for an empty text. -/
def exponent? : List Char → Option Int
  | [] => some 0
  | mark :: rest =>
    if mark = 'e' ∨ mark = 'E' then
      let (negative, body) := match rest with
        | '-' :: body => (true, body)
        | '+' :: body => (false, body)
        | body => (false, body)
      if body ≠ [] ∧ body.all Char.isDigit then
        let value : Int := Nat.ofDigitChars 10 body 0
        some (if negative then -value else value)
      else none
    else none

/-- The digits of a fraction that a text starts with, and what follows them. There are none if the text does not
start with a point, and no answer if there is a point without digits. -/
def fraction? : List Char → Option (List Char × List Char)
  | '.' :: rest =>
    let (fraction, rest) := digits rest
    if fraction = [] then none else some (fraction, rest)
  | rest => some ([], rest)

/-- The parts of the numeral `text`, which has no sign. -/
def unsigned? (text : List Char) : Option Numeral := do
  let (integer, rest) := digits text
  guard (isInteger integer)
  let (fraction, rest) ← fraction? rest
  let exponent ← exponent? rest
  return { integer, fraction, exponent }

/-- The parts of a numeral, whose sign is left out. -/
def read? : List Char → Option Numeral
  | '-' :: rest => unsigned? rest
  | text => unsigned? text

/-- The value of the numeral `text`: a `natural` if it has only digits, and otherwise the `decimal` itself. -/
def value? (text : List Char) : Option Json :=
  if isInteger text && text.all Char.isDigit then some (.natural (Nat.ofDigitChars 10 text 0))
  else (read? text).map fun _ => .decimal (String.ofList text)

/-- `appendDigits value digits` is `value` with as many of the decimal `digits` appended as leave it below `2 ^
64`, and how many of them were left out. -/
def appendDigits : Nat → List Char → Nat × Nat
  | value, [] => (value, 0)
  | value, c :: rest =>
    let next := value * 10 + (c.toNat - '0'.toNat)
    if next < UInt64.size then appendDigits next rest else (value, rest.length + 1)

/-- `numeral` as a word times a power of ten. Digits that do not fit are left out. Those of the integer still
count for the power, and those of the fraction are tried even if some of the integer were left out. -/
def scientific (numeral : Numeral) : Nat × Int :=
  let (word, dropped) := appendDigits 0 numeral.integer
  let (word, ignored) := appendDigits word numeral.fraction
  let places := numeral.fraction.length - ignored
  (word, numeral.exponent + dropped - places)

/-- `numeral` is too large for double precision, as its word and power of `scientific` are multiplied. -/
def exceedsDouble (numeral : Numeral) : Bool :=
  let (word, power) := numeral.scientific
  Double.exceeds word power

end Numeral

end TrafficMeter.Json
