import TrafficMeter.Yaml.BlockScalar
import TrafficMeter.Yaml.Token.Property

/-!
# Reading YAML tokens

Whether something is a key is known only at the colon behind it. So the `Lexer` remembers where a key may have
started (`KeyStart`), and when the colon comes the token for the key is put in front of the tokens since then.
Outside of brackets the column of a key or a dash opens a block collection, and a smaller column closes it again
(`Lexer.openBlock`, `Lexer.closeBlocks`).
-/

namespace TrafficMeter.Yaml

/-- A place at which a key may have started. -/
structure KeyStart where
  /-- The number of tokens before it. -/
  index : Nat
  /-- The position. -/
  position : Position
  /-- There must be a key, because what else could stand there belongs to no value. -/
  required : Bool
deriving DecidableEq, Repr

/-- How far a text has been read. -/
structure Lexer where
  /-- What is still to be read. -/
  cursor : Cursor
  /-- The tokens so far, last one first. -/
  tokens : List Token := []
  /-- The number of tokens so far. -/
  count : Nat := 0
  /-- The columns of the open block collections, innermost first. -/
  indents : List Nat := []
  /-- A key may start at the next token. -/
  keyAllowed : Bool := true
  /-- Where a key may have started in the innermost brackets. -/
  keyStart : Option KeyStart := none
  /-- The same for the brackets around them, innermost first. -/
  outer : List (Option KeyStart) := []
deriving Repr

namespace Lexer

/-- The position of `lexer` is inside brackets. -/
def isFlow (lexer : Lexer) : Bool :=
  !lexer.outer.isEmpty

/-- The column from which on text belongs to the innermost block collection of `lexer`. -/
def margin (lexer : Lexer) : Nat :=
  (lexer.indents.head?.map (· + 1)).getD 0

/-- Adds `token` at the end. -/
def push (lexer : Lexer) (token : Token) : Lexer :=
  { lexer with tokens := token :: lexer.tokens, count := lexer.count + 1 }

/-- Puts `token` in front of those from number `index` on. -/
def insert (lexer : Lexer) (index : Nat) (token : Token) : Lexer :=
  let (later, earlier) := lexer.tokens.splitAt (lexer.count - index)
  { lexer with tokens := later ++ token :: earlier, count := lexer.count + 1 }

/-- Goes on behind `token`, which has `length` characters. -/
def accept (lexer : Lexer) (length : Nat) (token : Token) : Lexer :=
  { lexer.push token with cursor := lexer.cursor.skip length }

/-- Opens a block collection at `column`, unless one is open there. Its `token` comes before those from number
`index` on. -/
def openBlock (lexer : Lexer) (column index : Nat) (token : Token) : Lexer :=
  if !lexer.isFlow && lexer.margin ≤ column then
    { lexer.insert index token with indents := column :: lexer.indents }
  else lexer

/-- Closes the block collections at `column` and to the right of it. -/
def closeBlocks (lexer : Lexer) (column : Nat) : Lexer :=
  if lexer.isFlow then lexer
  else
    let (closed, indents) := lexer.indents.span (column ≤ ·)
    { closed.foldl (fun lexer _ => lexer.push .blockEnd) lexer with indents }

/-- Gives up on the key that may have started in `lexer`, unless there must be one. -/
def dropKey (lexer : Lexer) : Option Lexer :=
  if lexer.keyStart.any KeyStart.required then none else some { lexer with keyStart := none }

/-- Remembers that a key may start here, if `lexer.keyAllowed`. There must be one where the innermost block
collection has its column. -/
def markKey (lexer : Lexer) : Option Lexer :=
  if lexer.keyAllowed then do
    let lexer ← lexer.dropKey
    let required := !lexer.isFlow && lexer.indents.head? == some lexer.cursor.column
    let keyStart := some { index := lexer.count, position := lexer.cursor.toPosition, required }
    return { lexer with keyStart }
  else some lexer

/-- The longest distance in bytes from the start of a key to its colon. -/
def keyReach : Nat := 1024

/-- Gives up on a key that started in an earlier line or more than `keyReach` bytes away. -/
def dropDistantKey (lexer : Lexer) : Option Lexer :=
  match lexer.keyStart with
  | none => some lexer
  | some start =>
    if start.position.line < lexer.cursor.line ∨ start.position.offset + keyReach < lexer.cursor.offset then
      lexer.dropKey
    else some lexer

/-- Goes to the next token. Outside of brackets a key may start in a new line, and block collections to the right
of the token are closed. -/
def approach (lexer : Lexer) : Option Lexer := do
  let cursor := lexer.cursor.skipToToken lexer.isFlow (lexer.isFlow || !lexer.keyAllowed)
  let keyAllowed := lexer.keyAllowed || (!lexer.isFlow && lexer.cursor.line < cursor.line)
  let lexer ← { lexer with cursor, keyAllowed }.dropDistantKey
  return lexer.closeBlocks (cursor.column + 1)

/-- Reads the mark `token` between documents. -/
def readMark (lexer : Lexer) (token : Token) : Option Lexer := do
  let lexer ← (lexer.closeBlocks 0).dropKey
  return { lexer with keyAllowed := false }.accept 3 token

/-- Reads a directive. -/
def readDirective (lexer : Lexer) : Option Lexer := do
  let lexer ← (lexer.closeBlocks 0).dropKey
  let (token, cursor) ← scanDirective? lexer.cursor
  return { lexer.push token with cursor, keyAllowed := false }

/-- Reads the opening bracket or brace `token`. -/
def readOpening (lexer : Lexer) (token : Token) : Option Lexer := do
  let lexer ← lexer.markKey
  let inner := { lexer with outer := lexer.keyStart :: lexer.outer, keyStart := none, keyAllowed := true }
  return inner.accept 1 token

/-- Reads the closing bracket or brace `token`. -/
def readClosing (lexer : Lexer) (token : Token) : Option Lexer := do
  let lexer ← lexer.dropKey
  let lexer := match lexer.outer with
    | keyStart :: outer => { lexer with keyStart, outer }
    | [] => lexer
  return { lexer with keyAllowed := false }.accept 1 token

/-- Reads a comma. -/
def readComma (lexer : Lexer) : Option Lexer := do
  let lexer ← lexer.dropKey
  return { lexer with keyAllowed := true }.accept 1 .flowEntry

/-- Reads the dash of an entry. -/
def readDash (lexer : Lexer) : Option Lexer := do
  guard (lexer.isFlow || lexer.keyAllowed)
  let lexer ← (lexer.openBlock lexer.cursor.column lexer.count .blockSequenceStart).dropKey
  return { lexer with keyAllowed := true }.accept 1 .blockEntry

/-- Reads the question mark in front of a key. -/
def readQuestion (lexer : Lexer) : Option Lexer := do
  guard (lexer.isFlow || lexer.keyAllowed)
  let lexer ← (lexer.openBlock lexer.cursor.column lexer.count .blockMappingStart).dropKey
  return { lexer with keyAllowed := !lexer.isFlow }.accept 1 .key

/-- Reads the colon in front of a value. If `lexer.keyStart` says that a key may have started, that was one. -/
def readColon (lexer : Lexer) : Option Lexer := do
  match lexer.keyStart with
  | some start =>
    let lexer := lexer.insert start.index .key
    let lexer := lexer.openBlock start.position.column start.index .blockMappingStart
    return { lexer with keyStart := none, keyAllowed := false }.accept 1 .value
  | none =>
    guard (lexer.isFlow || lexer.keyAllowed)
    let lexer := lexer.openBlock lexer.cursor.column lexer.count .blockMappingStart
    return { lexer with keyAllowed := !lexer.isFlow }.accept 1 .value

/-- Reads an anchor or an alias, of whose name `token` makes the token. -/
def readAnchor (lexer : Lexer) (token : String → Token) : Option Lexer := do
  let lexer ← lexer.markKey
  let (name, cursor) ← scanAnchor? lexer.cursor
  return { lexer.push (token name) with cursor, keyAllowed := false }

/-- Reads a tag. -/
def readTag (lexer : Lexer) : Option Lexer := do
  let lexer ← lexer.markKey
  let (name, cursor) ← scanTag? lexer.isFlow lexer.cursor
  return { lexer.push (.tag name) with cursor, keyAllowed := false }

/-- Reads a block scalar, a literal one if `literal` and else a folded one. -/
def readBlockScalar (lexer : Lexer) (literal : Bool) : Option Lexer := do
  let lexer ← lexer.dropKey
  let scalar ← scanBlockScalar literal lexer.margin lexer.cursor
  let token := Token.scalar (if literal then .literal else .folded) scalar.text
  return { lexer.push token with cursor := scalar.cursor, keyAllowed := true }

/-- Reads a quoted scalar, in double quotes if `double` and else in single ones. -/
def readQuoted (lexer : Lexer) (double : Bool) : Option Lexer := do
  let lexer ← lexer.markKey
  let start := lexer.cursor.next
  let scalar ←
    if double then scanDouble .none start.toPosition [] {} start.rest
    else scanSingle start.toPosition [] {} start.rest
  return { lexer.push (.scalar .quoted scalar.text) with cursor := scalar.cursor, keyAllowed := false }

/-- Reads a plain scalar. -/
def readPlain (lexer : Lexer) : Option Lexer := do
  guard (startsPlain lexer.isFlow lexer.cursor.rest)
  let lexer ← lexer.markKey
  let scalar ←
    scanPlain lexer.isFlow lexer.margin lexer.cursor.toPosition [] {} lexer.cursor.rest
  return {
    lexer.push (.scalar .plain scalar.text) with
    cursor := scalar.cursor
    keyAllowed := scalar.lineEnded }

/-- At the position of `lexer` there is `indicator` in front of a key or value. Inside brackets no blank is
needed after it. -/
def isAtIndicator (lexer : Lexer) (indicator : Char) : Bool :=
  if lexer.isFlow then lexer.cursor.isAt indicator else lexer.cursor.isAtIndicator indicator

/-- Reads a token that its first character decides, or else a plain scalar. -/
def readByFirst (lexer : Lexer) : Option Lexer :=
  match lexer.cursor.rest.head? with
  | some '[' => lexer.readOpening .flowSequenceStart
  | some '\x7b' => lexer.readOpening .flowMappingStart
  | some ']' => lexer.readClosing .flowSequenceEnd
  | some '\x7d' => lexer.readClosing .flowMappingEnd
  | some ',' => lexer.readComma
  | some '*' => lexer.readAnchor .alias
  | some '&' => lexer.readAnchor .anchor
  | some '!' => lexer.readTag
  | some '|' => if lexer.isFlow then none else lexer.readBlockScalar true
  | some '>' => if lexer.isFlow then none else lexer.readBlockScalar false
  | some '\'' => lexer.readQuoted false
  | some '"' => lexer.readQuoted true
  | _ => lexer.readPlain

/-- Reads the token at the position of `lexer`. -/
def readToken (lexer : Lexer) : Option Lexer :=
  if lexer.cursor.column == 0 && lexer.cursor.isAt '%' then lexer.readDirective
  else if lexer.cursor.isAtMark '-' then lexer.readMark .documentStart
  else if lexer.cursor.isAtMark '.' then lexer.readMark .documentEnd
  else if lexer.cursor.isAtIndicator '-' then lexer.readDash
  else if lexer.isAtIndicator '?' then lexer.readQuestion
  else if lexer.isAtIndicator ':' then lexer.readColon
  else lexer.readByFirst

/-- The tokens of `lexer` at the end of the text, with all block collections closed. -/
def finish (lexer : Lexer) : Option (List Token) := do
  let lexer ← (lexer.closeBlocks 0).dropKey
  return lexer.tokens.reverse

/-- Reads all tokens. Each of them takes a character, so a `fuel` of one more than there are characters is
enough. -/
def run : Nat → Lexer → Option (List Token)
  | 0, _ => none
  | fuel + 1, lexer => do
    let lexer ← lexer.approach
    if lexer.cursor.rest.isEmpty then lexer.finish else run fuel (← lexer.readToken)

end Lexer

/-- The tokens of `text`, whose characters must all be printable. -/
def Token.ofText? (text : String) : Option (List Token) :=
  let chars := text.toList
  if chars.all isPrintable then Lexer.run (chars.length + 1) { cursor := { rest := chars } } else none

end TrafficMeter.Yaml
