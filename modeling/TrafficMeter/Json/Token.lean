import TrafficMeter.Json.Numeral
import TrafficMeter.Text.Decimal

/-!
# JSON tokens

A JSON text is cut into tokens by an automaton (`Scan`) that looks at one character at a time (`Scan.step`).
Words and numerals are the longest runs of word characters, which is harmless because no two of them may stand
side by side.
-/

namespace TrafficMeter.Json

/-- A token of a JSON text. -/
inductive Token where
  /-- An opening brace. -/
  | beginObject
  /-- A closing brace. -/
  | endObject
  /-- An opening bracket. -/
  | beginArray
  /-- A closing bracket. -/
  | endArray
  /-- A colon. -/
  | colon
  /-- A comma. -/
  | comma
  /-- A string literal. -/
  | string (text : Literal)
  /-- A numeral or one of the words `null`, `true` and `false`. -/
  | scalar (value : Json)
deriving Repr

/-- A part of a string literal: a character, or a 16-bit unit that was given by its number. -/
inductive Piece where
  /-- A character that stands for itself or was escaped by a letter. -/
  | char (c : Char)
  /-- A unit of UTF-16. -/
  | unit (n : Nat)
deriving DecidableEq, Repr

/-- The text of a string literal of these pieces. Two units that form a surrogate pair are one character, and
half a pair is no text at all. -/
def Piece.text? : List Piece → Option (List Char)
  | [] => some []
  | .char c :: rest => (text? rest).map (c :: ·)
  | [.unit n] => if n < 0xd800 ∨ 0xdfff < n then some [Char.ofNat n] else none
  | .unit n :: .char c :: rest =>
    if n < 0xd800 ∨ 0xdfff < n then (text? rest).map fun text => Char.ofNat n :: c :: text else none
  | .unit n :: .unit m :: rest =>
    if n < 0xd800 ∨ 0xdfff < n then (text? (.unit m :: rest)).map (Char.ofNat n :: ·)
    else if n < 0xdc00 ∧ 0xdc00 ≤ m ∧ m ≤ 0xdfff then
      (text? rest).map (Char.ofNat (0x10000 + (n - 0xd800) * 0x400 + (m - 0xdc00)) :: ·)
    else none

/-- What the scanner is in the middle of. What it has read of a token is kept last character first. -/
inductive Mode where
  /-- Between tokens. -/
  | blank
  /-- In a word or numeral, of which `read` was read. -/
  | word (read : List Char)
  /-- In a string literal, of which `read` was read. -/
  | string (read : List Piece)
  /-- After a backslash in a string literal, of which `read` was read before. -/
  | escape (read : List Piece)
  /-- In an escape by number, whose first `count` of four digits stand for `value`. -/
  | unicode (read : List Piece) (value count : Nat)
deriving Repr

/-- The state of the scanner. -/
structure Scan where
  /-- What it is in the middle of. -/
  mode : Mode := .blank
  /-- The tokens found so far, last one first. -/
  tokens : List Token := []
deriving Repr

/-- The character `c` may stand between tokens. -/
def isSpace (c : Char) : Bool :=
  c == ' ' || c == '\t' || c == '\n' || c == '\r'

/-- The character `c` may stand in a word or numeral. -/
def isWordChar (c : Char) : Bool :=
  c.isAlphanum || c == '+' || c == '-' || c == '.'

/-- The token of the single character `c`. -/
def punctuation? (c : Char) : Option Token :=
  match c with
  | '\x7b' => some .beginObject
  | '\x7d' => some .endObject
  | '[' => some .beginArray
  | ']' => some .endArray
  | ':' => some .colon
  | ',' => some .comma
  | _ => none

/-- The token of `word`, which is `null`, `true`, `false` or a numeral. -/
def wordToken? (word : List Char) : Option Token :=
  if word = "null".toList then some (.scalar .null)
  else if word = "true".toList then some (.scalar (.bool true))
  else if word = "false".toList then some (.scalar (.bool false))
  else (Numeral.value? word).map .scalar

/-- The character that a backslash and `c` stand for. -/
def escaped? (c : Char) : Option Char :=
  match c with
  | '"' => some '"'
  | '\\' => some '\\'
  | '/' => some '/'
  | 'b' => some '\x08'
  | 'f' => some '\x0c'
  | 'n' => some '\n'
  | 'r' => some '\r'
  | 't' => some '\t'
  | _ => none

namespace Scan

/-- Reads the character `c` between tokens, after `tokens` were found. -/
def start (tokens : List Token) (c : Char) : Option Scan :=
  if isSpace c then some { tokens }
  else if c = '"' then some { mode := .string [], tokens }
  else if isWordChar c then some { mode := .word [c], tokens }
  else (punctuation? c).map fun token => { tokens := token :: tokens }

/-- Reads the character `c`. A character that ends a word is read once more as the start of what follows. -/
def step (scan : Scan) (c : Char) : Option Scan :=
  match scan.mode with
  | .blank => start scan.tokens c
  | .word read =>
    if isWordChar c then some { scan with mode := .word (c :: read) }
    else do
      let token ← wordToken? read.reverse
      start (token :: scan.tokens) c
  | .string read =>
    if c = '"' then
      some { tokens := .string ((Piece.text? read.reverse).map String.ofList) :: scan.tokens }
    else if c = '\\' then some { scan with mode := .escape read }
    else if c.toNat < 0x20 then none
    else some { scan with mode := .string (.char c :: read) }
  | .escape read =>
    if c = 'u' then some { scan with mode := .unicode read 0 0 }
    else (escaped? c).map fun char => { scan with mode := .string (.char char :: read) }
  | .unicode read value count => do
    let digit ← Text.digit? 16 c
    let value := value * 16 + digit
    if count = 3 then return { scan with mode := .string (.unit value :: read) }
    else return { scan with mode := .unicode read value (count + 1) }

/-- The tokens at the end of the text, unless `scan` is inside a string literal. -/
def finish (scan : Scan) : Option (List Token) :=
  match scan.mode with
  | .blank => some scan.tokens.reverse
  | .word read => (wordToken? read.reverse).map fun token => (token :: scan.tokens).reverse
  | _ => none

end Scan

/-- The tokens of `text`, if the automaton `Scan` accepts it. -/
def tokens? (text : List Char) : Option (List Token) := do
  let scan ← text.foldlM Scan.step {}
  scan.finish

end TrafficMeter.Json
