import TrafficMeter.Text.Decimal
import TrafficMeter.Yaml.Cursor
import TrafficMeter.Yaml.Token.Basic

/-!
# Anchors, tags and directives

The tokens that are neither values nor structure: names for values (`scanAnchor?`), tags of values (`scanTag?`),
and the lines in front of a document that say which version it is written for and what its tag handles stand for
(`scanDirective?`).
-/

namespace TrafficMeter.Yaml

/-- The name of an anchor may be followed by a text that starts with a blank or with one of these characters. -/
def endsName : List Char → Bool
  | [] => true
  | c :: rest => startsBlank (c :: rest) || "?:,]\x7d%@`".toList.contains c

/-- Reads the name of an anchor at `cursor`, after its indicator. -/
def scanAnchor? (cursor : Cursor) : Option (String × Cursor) :=
  let (name, after) := cursor.next.span isNameChar
  if name ≠ [] ∧ endsName after.rest then some (String.ofList name, after) else none

/-- Reads a tag handle at `cursor`, or as much of one as there is. -/
def scanHandle? (cursor : Cursor) : Option (List Char × Cursor) :=
  if cursor.isAt '!' then
    let (name, after) := cursor.next.span isNameChar
    if after.isAt '!' then some ('!' :: name ++ ['!'], after.next) else some ('!' :: name, after)
  else none

/-- The character `c` may stand in a tag. Brackets and commas belong only to a tag that is written in `full`. -/
def isTagChar (full : Bool) (c : Char) : Bool :=
  isNameChar c || ";/?:@&=+$.%!~*'()".toList.contains c || (full && ",[]".toList.contains c)

/-- The byte that an escape by two digits stands for. -/
def escapedByte? : List Char → Option (Nat × List Char)
  | '%' :: high :: low :: rest => do
    let high ← Text.digit? 16 high
    let low ← Text.digit? 16 low
    return (high * 16 + low, rest)
  | _ => none

/-- The number of bytes of a character in UTF-8 whose first one is `byte`. -/
def sequenceLength? (byte : Nat) : Option Nat :=
  if byte < 0x80 then some 1
  else if 0xc0 ≤ byte ∧ byte < 0xe0 then some 2
  else if 0xe0 ≤ byte ∧ byte < 0xf0 then some 3
  else if 0xf0 ≤ byte ∧ byte < 0xf8 then some 4
  else none

/-- `moreBytes? count text` reads the escapes of `count` more bytes of a character. -/
def moreBytes? : Nat → List Char → Option (List Nat)
  | 0, _ => some []
  | count + 1, text => do
    let (byte, rest) ← escapedByte? text
    guard (0x80 ≤ byte ∧ byte < 0xc0)
    let bytes ← moreBytes? count rest
    return byte :: bytes

/-- Reads a character at the start of `text` whose bytes are escaped, and how many of them there are. -/
def escapedChar? (text : List Char) : Option (Char × Nat) := do
  let (byte, rest) ← escapedByte? text
  let length ← sequenceLength? byte
  let bytes ← moreBytes? (length - 1) rest
  let decoded ← String.fromUTF8? (ByteArray.mk ((byte :: bytes).map UInt8.ofNat).toArray)
  match decoded.toList with
  | [c] => some (c, length)
  | _ => none

/-- `scanTagText? full fuel read cursor` reads the characters of a tag at `cursor`. What was read is kept last
character first in `read`. -/
def scanTagText? (full : Bool) : Nat → List Char → Cursor → Option (List Char × Cursor)
  | 0, _, _ => none
  | fuel + 1, read, cursor =>
    match cursor.rest.head? with
    | some '%' => do
      let (c, length) ← escapedChar? cursor.rest
      scanTagText? full fuel (c :: read) (cursor.skip (3 * length))
    | some c =>
      if isTagChar full c then scanTagText? full fuel (c :: read) cursor.next
      else some (read.reverse, cursor)
    | none => some (read.reverse, cursor)

/-- Reads the characters of a tag at `cursor`, of which there is at least one. -/
def scanTagSuffix? (full : Bool) (cursor : Cursor) : Option (String × Cursor) := do
  let (text, after) ← scanTagText? full (cursor.rest.length + 1) [] cursor
  guard (after.offset ≠ cursor.offset)
  return (String.ofList text, after)

/-- Reads a tag in angle brackets at `cursor`, which is written in full. -/
def scanFullTag? (cursor : Cursor) : Option (TagName × Cursor) := do
  let (suffix, after) ← scanTagSuffix? true (cursor.skip 2)
  guard (after.isAt '>')
  return ({ handle := "", suffix }, after.next)

/-- Reads a tag at `cursor` that starts with a handle. What looks like the beginning of a longer handle is part
of the tag, and a lone exclamation mark is a tag by itself. -/
def scanShortTag? (cursor : Cursor) : Option (TagName × Cursor) := do
  let (handle, after) ← scanHandle? cursor
  if 1 < handle.length ∧ handle.getLast? = some '!' then
    let (suffix, after) ← scanTagSuffix? false after
    return ({ handle := String.ofList handle, suffix }, after)
  else
    let (more, after) ← scanTagText? false (after.rest.length + 1) [] after
    let suffix := handle.drop 1 ++ more
    if suffix = [] then return ({ handle := "", suffix := "!" }, after)
    else return ({ handle := "!", suffix := String.ofList suffix }, after)

/-- Reads a tag at `cursor`, which ends at a blank, or inside brackets at a comma. -/
def scanTag? (flow : Bool) (cursor : Cursor) : Option (TagName × Cursor) := do
  let (tag, after) ← match cursor.rest with
    | '!' :: '<' :: _ => scanFullTag? cursor
    | _ => scanShortTag? cursor
  guard (startsBlank after.rest || flow && after.isAt ',')
  return (tag, after)

/-- Reads a number of a version at `cursor`, of at most nine digits. -/
def scanVersionNumber? (cursor : Cursor) : Option (Nat × Cursor) :=
  let (digits, after) := cursor.span Char.isDigit
  if digits ≠ [] ∧ digits.length ≤ 9 then some (Nat.ofDigitChars 10 digits 0, after) else none

/-- Reads what follows the name of a version directive, at `cursor`. -/
def scanVersion? (cursor : Cursor) : Option (Token × Cursor) := do
  let (major, after) ← scanVersionNumber? (cursor.span isBlank).2
  guard (after.isAt '.')
  let (minor, after) ← scanVersionNumber? after.next
  return (.version major minor, after)

/-- Reads what follows the name of a tag directive, at `cursor`. -/
def scanTagHandle? (cursor : Cursor) : Option (Token × Cursor) := do
  let (handle, after) ← scanHandle? (cursor.span isBlank).2
  guard (handle = ['!'] ∨ 1 < handle.length ∧ handle.getLast? = some '!')
  guard (after.rest.head?.any isBlank)
  let (meaning, after) ← scanTagSuffix? true (after.span isBlank).2
  guard (startsBlank after.rest)
  return (.tagHandle (String.ofList handle) meaning, after)

/-- Reads a directive at `cursor` up to the end of its line. -/
def scanDirective? (cursor : Cursor) : Option (Token × Cursor) := do
  let (name, after) := cursor.next.span isNameChar
  guard (startsBlank after.rest)
  let (token, after) ←
    if name = "YAML".toList then scanVersion? after
    else if name = "TAG".toList then scanTagHandle? after
    else none
  return (token, ← after.skipLineEnd?)

end TrafficMeter.Yaml
