import TrafficMeter.Json.Basic
import TrafficMeter.Text.Decimal

/-!
# Writing JSON

Values are written in one line without any blanks, or with every item and member on a line of its own, indented
by two spaces for each level (`Style`). Empty arrays and objects take no line. `Json.render` writes a value.
-/

namespace TrafficMeter.Json

/-- How values are laid out. -/
inductive Style where
  /-- In one line, without blanks. -/
  | compact
  /-- One item or member in a line. -/
  | pretty
deriving DecidableEq, Repr

/-- The line break before an item at `depth`, with its indentation. -/
def Style.lineBreak (style : Style) (depth : Nat) : List Char :=
  match style with
  | .compact => []
  | .pretty => '\n' :: List.replicate (2 * depth) ' '

/-- What stands between a key and its value. -/
def Style.colon : Style → List Char
  | .compact => [':']
  | .pretty => [':', ' ']

/-- The character `c` inside a string literal, escaped if it has to be. -/
def escapeChar (c : Char) : List Char :=
  match c with
  | '"' => ['\\', '"']
  | '\\' => ['\\', '\\']
  | '\x08' => ['\\', 'b']
  | '\x0c' => ['\\', 'f']
  | '\n' => ['\\', 'n']
  | '\r' => ['\\', 'r']
  | '\t' => ['\\', 't']
  | _ =>
    if c.toNat < 0x20 then
      ['\\', 'u', '0', '0', Nat.digitChar (c.toNat / 16), Nat.digitChar (c.toNat % 16)]
    else [c]

/-- The string literal of `text`, quotes included. -/
def renderLiteral (text : Literal) : List Char :=
  '"' :: (text.getD "").toList.flatMap escapeChar ++ ['"']

mutual

/-- The characters of a value at `depth`, where the first line needs no indentation. -/
def renderAt (style : Style) (depth : Nat) : Json → List Char
  | .null => "null".toList
  | .bool true => "true".toList
  | .bool false => "false".toList
  | .natural value => Text.decimal value
  | .decimal numeral => numeral.toList
  | .string text => renderLiteral text
  | .array [] => ['[', ']']
  | .array (item :: items) =>
    '[' :: renderItems style (depth + 1) (item :: items) ++ style.lineBreak depth ++ [']']
  | .object [] => ['\x7b', '\x7d']
  | .object (member :: members) =>
    '\x7b' :: renderMembers style (depth + 1) (member :: members) ++ style.lineBreak depth ++ ['\x7d']

/-- The items of an array at `depth`, each after a line break, with commas between them. -/
def renderItems (style : Style) (depth : Nat) : List Json → List Char
  | [] => []
  | [item] => style.lineBreak depth ++ renderAt style depth item
  | item :: items =>
    style.lineBreak depth ++ renderAt style depth item ++ ',' :: renderItems style depth items

/-- The members of an object at `depth`, each after a line break, with commas between them. -/
def renderMembers (style : Style) (depth : Nat) : List (Literal × Json) → List Char
  | [] => []
  | [(key, value)] =>
    style.lineBreak depth ++ renderLiteral key ++ style.colon ++ renderAt style depth value
  | (key, value) :: members =>
    style.lineBreak depth ++ renderLiteral key ++ style.colon ++ renderAt style depth value ++
      ',' :: renderMembers style depth members

end

/-- The text of `value` in the given `style`. -/
def render (style : Style) (value : Json) : String :=
  String.ofList (renderAt style 0 value)

end TrafficMeter.Json
