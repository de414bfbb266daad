/-!
# Positions in a YAML text

Indentation decides the structure of a YAML text, so a `Position` is known by line and column. This module has
the kinds of characters, and the skipping of blanks, comments and line breaks (`Cursor.skipToToken`).
-/

namespace TrafficMeter.Yaml

/-- A position in a text. -/
structure Position where
  /-- The number of the line, from zero. -/
  line : Nat := 0
  /-- The number of the column, from zero. -/
  column : Nat := 0
  /-- The number of bytes before the position, in UTF-8. -/
  offset : Nat := 0
deriving DecidableEq, Repr

namespace Position

/-- The position after `c`, which is no line break. -/
def next (position : Position) (c : Char) : Position :=
  { position with column := position.column + 1, offset := position.offset + c.utf8Size }

/-- The position after a line break of `size` bytes. -/
def nextLine (position : Position) (size : Nat) : Position :=
  { line := position.line + 1, offset := position.offset + size }

end Position

/-- A position together with what is still to be read there. -/
structure Cursor extends Position where
  /-- The characters from the position on. -/
  rest : List Char
deriving Repr

/-- The character `c` may stand in a text. Other control characters are refused. -/
def isPrintable (c : Char) : Bool :=
  c == '\t' || c == '\n' || c == '\r' || (' ' ≤ c && c ≤ '~') || c.toNat == 0x85 ||
    (0xa0 ≤ c.toNat && c.toNat ≤ 0xfffd) || 0x10000 ≤ c.toNat

/-- A byte order mark, which may stand at the start of any line. -/
def byteOrderMark : Char := '\ufeff'

/-- The character `c` is a line break. A carriage return together with a line feed is one. -/
def isBreak (c : Char) : Bool :=
  c == '\n' || c == '\r' || c.toNat == 0x85 || c.toNat == 0x2028 || c.toNat == 0x2029

/-- What the line break `c` is read as. -/
def normalBreak (c : Char) : Char :=
  if c.toNat = 0x2028 ∨ c.toNat = 0x2029 then c else '\n'

/-- The character `c` is a blank inside a line. -/
def isBlank (c : Char) : Bool :=
  c == ' ' || c == '\t'

/-- A text is at the end of a line. -/
def startsBreak : List Char → Bool
  | [] => true
  | c :: _ => isBreak c

/-- A text starts with a blank or a line break, or is at its end. -/
def startsBlank : List Char → Bool
  | [] => true
  | c :: _ => isBlank c || isBreak c

/-- The character `c` ends a collection or an item inside brackets. -/
def isFlowIndicator (c : Char) : Bool :=
  c == ',' || c == '[' || c == ']' || c == '\x7b' || c == '\x7d'

/-- The character `c` may stand in the names of anchors, directives and tag handles. -/
def isNameChar (c : Char) : Bool :=
  c.isAlphanum || c == '_' || c == '-'

namespace Cursor

/-- `cursor` after one character, which is no line break. -/
def next (cursor : Cursor) : Cursor :=
  match cursor.rest with
  | [] => cursor
  | c :: rest => { toPosition := cursor.toPosition.next c, rest }

/-- `skip count cursor` is `cursor` after `count` characters, which are no line breaks. -/
def skip : Nat → Cursor → Cursor
  | 0, cursor => cursor
  | count + 1, cursor => skip count cursor.next

/-- Splits off the characters at `cursor` of a `kind` that has no line breaks. -/
def span (kind : Char → Bool) (cursor : Cursor) : List Char × Cursor :=
  let found := cursor.rest.takeWhile kind
  (found, cursor.skip found.length)

/-- `cursor` after a line break, if there is one. -/
def skipBreak (cursor : Cursor) : Cursor :=
  match cursor.rest with
  | '\r' :: '\n' :: rest => { toPosition := cursor.toPosition.nextLine 2, rest }
  | c :: rest =>
    if isBreak c then { toPosition := cursor.toPosition.nextLine c.utf8Size, rest } else cursor
  | [] => cursor

/-- `cursor` after the end of its line, on which nothing but blanks and a comment may be left. -/
def skipLineEnd? (cursor : Cursor) : Option Cursor :=
  let cursor := (cursor.span isBlank).2
  let cursor := if cursor.rest.head? = some '#' then (cursor.span fun c => !isBreak c).2 else cursor
  if startsBreak cursor.rest then some cursor.skipBreak else none

/-- The character at `cursor` is `c`. -/
def isAt (c : Char) (cursor : Cursor) : Bool :=
  cursor.rest.head? == some c

/-- At `cursor` there are three characters `mark` on their own at the start of a line. -/
def isAtMark (mark : Char) (cursor : Cursor) : Bool :=
  match cursor.rest with
  | a :: b :: c :: rest =>
    cursor.column == 0 && a == mark && b == mark && c == mark && startsBlank rest
  | _ => false

/-- The text or the document ends at `cursor`. -/
def isAtEnd (cursor : Cursor) : Bool :=
  cursor.rest.isEmpty || cursor.isAtMark '-' || cursor.isAtMark '.'

/-- At `cursor` there is `indicator` with a blank after it. -/
def isAtIndicator (indicator : Char) (cursor : Cursor) : Bool :=
  match cursor.rest with
  | c :: rest => c == indicator && startsBlank rest
  | [] => false

end Cursor

/-- Skips blanks, comments and line breaks from `position` on, and a byte order mark at the start of a line. Tabs
count as blanks where `tabs` says so, which outside of brackets holds only up to the end of the line. -/
def skipFrom (flow tabs comment : Bool) (position : Position) : List Char → Cursor
  | [] => { toPosition := position, rest := [] }
  | '\r' :: '\n' :: rest => skipFrom flow flow false (position.nextLine 2) rest
  | c :: rest =>
    if isBreak c then skipFrom flow flow false (position.nextLine c.utf8Size) rest
    else if comment || c == ' ' || (c == '\t' && tabs) || (c == byteOrderMark && position.column == 0) then
      skipFrom flow tabs comment (position.next c) rest
    else if c == '#' then skipFrom flow tabs true (position.next c) rest
    else { toPosition := position, rest := c :: rest }

/-- `cursor` at the next token, inside brackets if `flow`. -/
def Cursor.skipToToken (flow tabs : Bool) (cursor : Cursor) : Cursor :=
  skipFrom flow tabs false cursor.toPosition cursor.rest

end TrafficMeter.Yaml
