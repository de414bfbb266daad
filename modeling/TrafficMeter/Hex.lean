import TrafficMeter.Bytes
import TrafficMeter.Text.Blank
import TrafficMeter.Text.Decimal

/-!
# Bytes as hexadecimal text

Bytes are written as pairs of upper-case digits with single spaces between them (`Hex.format`). They are read
from digits of either case with blanks anywhere, after an optional mark `hex` (`Hex.parse`).
-/

namespace TrafficMeter.Hex

/-- Why a text is no byte string. -/
inductive Error where
  /-- The number of digits is odd. -/
  | oddLength
  /-- The text has at `position` the `byte`, which is no digit. -/
  | invalidCharacter (byte : UInt8) (position : Nat)
deriving DecidableEq, Repr

/-- The digit of `n < 16`, in upper case. -/
def digit (n : Nat) : Char :=
  if n < 10 then Char.ofNat ('0'.toNat + n) else Char.ofNat ('A'.toNat + (n - 10))

/-- The two digits of `byte`, the high one first. -/
def pair (byte : UInt8) : List Char :=
  [digit (byte.toNat / 16), digit (byte.toNat % 16)]

/-- The two digits of each byte, with single spaces between bytes. -/
def formatChars : Bytes → List Char
  | [] => []
  | [byte] => pair byte
  | byte :: rest => pair byte ++ ' ' :: formatChars rest

/-- The text of `bytes`, such as `0A FF`. -/
def format (bytes : Bytes) : String :=
  String.ofList (formatChars bytes)

/-- The value below sixteen of the digit whose character code is `byte`. -/
def digitOf? (byte : UInt8) : Option Nat :=
  Text.digit? 16 (Char.ofNat byte.toNat)

/-- Reads pairs of digits into bytes, where the first digit stands at `position`. The first byte that is no digit
is reported. -/
def readPairs (position : Nat) : Bytes → Except Error Bytes
  | [] => .ok []
  | [_] => .error .oddLength
  | high :: low :: rest =>
    match digitOf? high, digitOf? low with
    | none, _ => .error (.invalidCharacter high position)
    | some _, none => .error (.invalidCharacter low (position + 1))
    | some h, some l => do
      let bytes ← readPairs (position + 2) rest
      return UInt8.ofNat (h * 16 + l) :: bytes

/-- `text` without outer blanks, then without the mark `hex` at its start, then without all blanks. -/
def compact (text : List Char) : List Char :=
  let body := match Text.trim text with
    | 'h' :: 'e' :: 'x' :: rest => rest
    | trimmed => trimmed
  body.filter fun c => !Text.isBlank c

/-- Reads bytes from `text`, which is given as its UTF-8 bytes. Its length is checked before its digits are. -/
def readBytes (text : Bytes) : Except Error Bytes :=
  if text.length % 2 = 0 then readPairs 0 text else .error .oddLength

/-- The byte string that `text` stands for. Positions in errors count the bytes of `compact text`. -/
def parse (text : String) : Except Error Bytes :=
  readBytes ((compact text.toList).flatMap String.utf8EncodeChar)

/-- The character with the code `byte` in quotes, with control characters escaped. -/
def quoted (byte : UInt8) : String :=
  let escaped := match byte.toNat with
    | 0 => "\\0"
    | 9 => "\\t"
    | 10 => "\\n"
    | 13 => "\\r"
    | 39 => "\\'"
    | 92 => "\\\\"
    | n =>
      if n < 0x20 ∨ (0x7f ≤ n ∧ n ≤ 0xa0) ∨ n = 0xad then
        "\\u\x7b" ++ String.ofList (Nat.toDigits 16 n) ++ "\x7d"
      else String.singleton (Char.ofNat n)
  "'" ++ escaped ++ "'"

/-- The wording of an error. -/
def Error.message : Error → String
  | .oddLength => "Odd number of digits"
  | .invalidCharacter byte position => s!"Invalid character {quoted byte} at position {position}"

end TrafficMeter.Hex
