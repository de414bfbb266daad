import TrafficMeter.Yaml.Scalar

/-!
# Block scalars

A block scalar is the indented text below its header (`BlockHeader`). A literal one keeps its line breaks, a
folded one reads a single line break between two lines as a space, unless one of them starts with a blank. The
header may say how far the text is indented and what becomes of the line breaks at its end (`Chomping`).
-/

namespace TrafficMeter.Yaml

/-- What becomes of the line breaks at the end of a block scalar. -/
inductive Chomping where
  /-- The first one is kept. -/
  | clip
  /-- None is kept. -/
  | strip
  /-- All are kept. -/
  | keep
deriving DecidableEq, Repr

/-- The header of a block scalar. -/
structure BlockHeader where
  /-- What becomes of the line breaks at the end. -/
  chomping : Chomping := .clip
  /-- How much further than its surroundings the text is indented, if the header says so. -/
  increment : Option Nat := none
deriving DecidableEq, Repr

namespace BlockHeader

/-- What the sign `+` or `-` in a header means. -/
def chomping? : Char → Option Chomping
  | '+' => some .keep
  | '-' => some .strip
  | _ => none

/-- Reads a sign at `cursor` into `header`, if there is one. -/
def readSign (header : BlockHeader) (cursor : Cursor) : BlockHeader × Cursor :=
  match cursor.rest.head?.bind chomping? with
  | some chomping => ({ header with chomping }, cursor.next)
  | none => (header, cursor)

/-- Reads a digit at `cursor` into `header`, if there is one. It is not zero. -/
def readDigit? (header : BlockHeader) (cursor : Cursor) : Option (BlockHeader × Cursor) :=
  match cursor.rest.head?.bind (Text.digit? 10) with
  | some 0 => none
  | some digit => some ({ header with increment := some digit }, cursor.next)
  | none => some (header, cursor)

/-- Reads a header at `cursor` up to the end of its line. A sign and a digit may come in either order. -/
def read? (cursor : Cursor) : Option (BlockHeader × Cursor) := do
  let (header, cursor) := readSign {} cursor
  let (header, cursor) ← header.readDigit? cursor
  let (header, cursor) := if header.chomping = .clip then header.readSign cursor else (header, cursor)
  return (header, ← cursor.skipLineEnd?)

end BlockHeader

/-- How far a block scalar has been read. -/
structure BlockScalar where
  /-- Line breaks are kept as they are. -/
  literal : Bool
  /-- The column at which lines start, as soon as it is known. -/
  indent : Option Nat
  /-- The text, last character first. -/
  read : List Char := []
  /-- The line break after the last line of text. -/
  lineBreak : Option Char := none
  /-- The line breaks of the empty lines after that, last one first. -/
  emptyLines : List Char := []
  /-- The last line of text started with a blank. -/
  afterBlank : Bool := false
deriving Repr

namespace BlockScalar

/-- Starts a line of text with its first character `c`. Before it comes what the line breaks since the last line
are read as. -/
def startLine (scalar : BlockScalar) (c : Char) : BlockScalar :=
  let folds := !scalar.literal && scalar.lineBreak == some '\n' && !scalar.afterBlank && !isBlank c
  let joint :=
    if folds then if scalar.emptyLines.isEmpty then [' '] else []
    else scalar.lineBreak.toList
  { scalar with
    read := c :: (scalar.emptyLines ++ joint ++ scalar.read)
    lineBreak := none
    emptyLines := []
    afterBlank := isBlank c }

/-- Adds the line break `c` after a line of text, if `inLine`, or after an empty line. -/
def addBreak (scalar : BlockScalar) (inLine : Bool) (c : Char) : BlockScalar :=
  if inLine then { scalar with lineBreak := some (normalBreak c) }
  else { scalar with emptyLines := normalBreak c :: scalar.emptyLines }

/-- The text of `scalar` at its end, with as many of the last line breaks as `chomping` says. -/
def text (scalar : BlockScalar) (chomping : Chomping) : String :=
  let ending := match chomping with
    | .strip => []
    | .clip => scalar.lineBreak.toList
    | .keep => scalar.emptyLines ++ scalar.lineBreak.toList
  String.ofList (ending ++ scalar.read).reverse

/-- The column at which lines start: as far as the first of them is indented, which is `widest`, but not less
than `margin`. -/
def indentAt (scalar : BlockScalar) (margin widest : Nat) : Nat :=
  scalar.indent.getD (max widest (max margin 1))

/-- Goes on with `scalar` at `position`, inside a line of text if `inLine` and else between two. While the
indentation is not known, the `widest` one of the empty lines counts as well. -/
def scan (margin : Nat) (chomping : Chomping) (scalar : BlockScalar) (inLine : Bool) (widest : Nat)
    (position : Position) : List Char → Option ScannedScalar
  | [] => some { text := scalar.text chomping, cursor := { toPosition := position, rest := [] } }
  | '\r' :: '\n' :: rest =>
    scan margin chomping (scalar.addBreak inLine '\n') false widest (position.nextLine 2) rest
  | c :: rest =>
    if isBreak c then
      scan margin chomping (scalar.addBreak inLine c) false widest (position.nextLine c.utf8Size) rest
    else if inLine then
      scan margin chomping { scalar with read := c :: scalar.read } true widest (position.next c) rest
    else
      let indented := scalar.indent.all fun indent => position.column < indent
      if indented && c == ' ' then
        scan margin chomping scalar false (max widest (position.column + 1)) (position.next c) rest
      else if indented && c == '\t' then none
      else
        let indent := scalar.indentAt margin widest
        if position.column = indent then
          scan margin chomping { scalar.startLine c with indent := some indent } true widest (position.next c)
            rest
        else
          some {
            text := scalar.text chomping
            cursor := { toPosition := position, rest := c :: rest } }

end BlockScalar

/-- Reads a block scalar at `cursor` from its indicator on. What surrounds it is indented to column `margin - 1`,
or there is nothing around it and `margin` is zero. -/
def scanBlockScalar (literal : Bool) (margin : Nat) (cursor : Cursor) : Option ScannedScalar := do
  let (header, cursor) ← BlockHeader.read? cursor.next
  let indent := header.increment.map fun increment => margin - 1 + increment
  BlockScalar.scan margin header.chomping { literal, indent } false 0 cursor.toPosition cursor.rest

end TrafficMeter.Yaml
