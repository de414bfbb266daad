import TrafficMeter.Text.Decimal
import TrafficMeter.Yaml.Cursor

/-!
# YAML scalars

Plain and quoted scalars may go on over several lines. The blanks around a line break are dropped, a single line
break is read as a space, and of several line breaks the first one is dropped (`Gap.text`).
-/

namespace TrafficMeter.Yaml

/-- The blanks and line breaks that were read since the last character of a scalar. -/
structure Gap where
  /-- The blanks, as long as there was no line break. -/
  blanks : List Char := []
  /-- A line break was read. -/
  broken : Bool := false
  /-- The first line break, unless it was escaped. -/
  first : Option Char := none
  /-- The line breaks after the first one. -/
  more : List Char := []
deriving Repr

namespace Gap

/-- `gap` with the blank `c` at its end. After a line break it leaves no trace. -/
def addBlank (gap : Gap) (c : Char) : Gap :=
  if gap.broken then gap else { gap with blanks := gap.blanks ++ [c] }

/-- `gap` with the line break `c` at its end. -/
def addBreak (gap : Gap) (c : Char) : Gap :=
  if gap.broken then { gap with more := gap.more ++ [normalBreak c] }
  else { broken := true, first := some (normalBreak c) }

/-- The gap after an escaped line break, which leaves no trace. -/
def addEscapedBreak (_ : Gap) : Gap :=
  { broken := true }

/-- What `gap` is read as inside a scalar. -/
def text (gap : Gap) : List Char :=
  if gap.broken then
    match gap.first with
    | some '\n' => if gap.more.isEmpty then [' '] else gap.more
    | some c => c :: gap.more
    | none => gap.more
  else gap.blanks

end Gap

/-- A scalar that was read: its text, the position after it and its trailing blanks, and whether that
position is in a later line than its last character. -/
structure ScannedScalar where
  /-- The text of the scalar. -/
  text : String
  /-- Where reading goes on. -/
  cursor : Cursor
  /-- A line break was skipped after the scalar. -/
  lineEnded : Bool := false
deriving Repr

/-- A plain scalar can start with the first of these characters, inside brackets if `flow`. -/
def startsPlain (flow : Bool) : List Char → Bool
  | [] => false
  | c :: rest =>
    if c == '-' then !startsBlank rest
    else if c == '?' || c == ':' then !flow && !startsBlank rest
    else !(isBlank c || isBreak c || isFlowIndicator c || "#&*!|>'\"%@`".toList.contains c)

/-- Goes on with a plain scalar at `position`, of which `read` was read, last character first, with `gap` after
it. Lines after the first must be indented to column `indent`, outside of brackets. -/
def scanPlain (flow : Bool) (indent : Nat) (position : Position) (read : List Char) (gap : Gap) :
    List Char → Option ScannedScalar
  | [] =>
    some {
      text := String.ofList read.reverse
      cursor := { toPosition := position, rest := [] }
      lineEnded := gap.broken }
  | '\r' :: '\n' :: rest => scanPlain flow indent (position.nextLine 2) read (gap.addBreak '\n') rest
  | c :: rest =>
    let here : Cursor := { toPosition := position, rest := c :: rest }
    let stop := some { text := String.ofList read.reverse, cursor := here, lineEnded := gap.broken }
    if isBreak c then scanPlain flow indent (position.nextLine c.utf8Size) read (gap.addBreak c) rest
    else if isBlank c then
      if gap.broken && position.column < indent && c == '\t' then none
      else scanPlain flow indent (position.next c) read (gap.addBlank c) rest
    else if gap.broken && !flow && position.column < indent then stop
    else if here.isAtEnd then stop
    else if c == '#' && (gap.broken || !gap.blanks.isEmpty) then stop
    else if flow && c == ':' && rest.head?.any (fun next => isFlowIndicator next || next == '?') then none
    else if here.isAtIndicator ':' || (flow && isFlowIndicator c) then stop
    else scanPlain flow indent (position.next c) (c :: (gap.text.reverse ++ read)) {} rest

/-- Goes on with a single-quoted scalar at `position`, in which a quote is written twice. -/
def scanSingle (position : Position) (read : List Char) (gap : Gap) : List Char → Option ScannedScalar
  | [] => none
  | '\'' :: '\'' :: rest =>
    scanSingle ((position.next '\'').next '\'') ('\'' :: (gap.text.reverse ++ read)) {} rest
  | '\r' :: '\n' :: rest => scanSingle (position.nextLine 2) read (gap.addBreak '\n') rest
  | c :: rest =>
    let here : Cursor := { toPosition := position, rest := c :: rest }
    if isBreak c then scanSingle (position.nextLine c.utf8Size) read (gap.addBreak c) rest
    else if isBlank c then scanSingle (position.next c) read (gap.addBlank c) rest
    else if here.isAtEnd then none
    else if c == '\'' then
      some { text := String.ofList (gap.text.reverse ++ read).reverse, cursor := here.next }
    else scanSingle (position.next c) (c :: (gap.text.reverse ++ read)) {} rest

/-- The character that a backslash and `c` stand for. -/
def escaped? (c : Char) : Option Char :=
  match c with
  | '0' => some '\x00'
  | 'a' => some '\x07'
  | 'b' => some '\x08'
  | 't' => some '\t'
  | '\t' => some '\t'
  | 'n' => some '\n'
  | 'v' => some '\x0b'
  | 'f' => some '\x0c'
  | 'r' => some '\r'
  | 'e' => some '\x1b'
  | ' ' => some ' '
  | '"' => some '"'
  | '/' => some '/'
  | '\\' => some '\\'
  | 'N' => some '\u0085'
  | '_' => some '\u00a0'
  | 'L' => some '\u2028'
  | 'P' => some '\u2029'
  | _ => none

/-- The number of digits of an escape by number that starts with `c`. -/
def escapeLength? (c : Char) : Option Nat :=
  match c with
  | 'x' => some 2
  | 'u' => some 4
  | 'U' => some 8
  | _ => none

/-- What a double-quoted scalar is in the middle of. -/
inductive EscapeMode where
  /-- No escape. -/
  | none
  /-- After a backslash. -/
  | backslash
  /-- In an escape by number, whose digits so far stand for `value`, with `left` more after the next one. -/
  | digits (left : Nat) (value : Nat)
deriving Repr

/-- Goes on with a double-quoted scalar at `position`, which is in the middle of `mode`. -/
def scanDouble (mode : EscapeMode) (position : Position) (read : List Char) (gap : Gap) :
    List Char → Option ScannedScalar
  | [] => none
  | '\r' :: '\n' :: rest =>
    match mode with
    | .none => scanDouble .none (position.nextLine 2) read (gap.addBreak '\n') rest
    | .backslash => scanDouble .none (position.nextLine 2) (gap.text.reverse ++ read) gap.addEscapedBreak rest
    | .digits .. => none
  | c :: rest =>
    match mode with
    | .none =>
      let here : Cursor := { toPosition := position, rest := c :: rest }
      if isBreak c then scanDouble .none (position.nextLine c.utf8Size) read (gap.addBreak c) rest
      else if isBlank c then scanDouble .none (position.next c) read (gap.addBlank c) rest
      else if here.isAtEnd then none
      else if c == '"' then
        some { text := String.ofList (gap.text.reverse ++ read).reverse, cursor := here.next }
      else if c == '\\' then scanDouble .backslash (position.next c) read gap rest
      else scanDouble .none (position.next c) (c :: (gap.text.reverse ++ read)) {} rest
    | .backslash =>
      if isBreak c then
        scanDouble .none (position.nextLine c.utf8Size) (gap.text.reverse ++ read) gap.addEscapedBreak rest
      else
        match escapeLength? c with
        | some length =>
          scanDouble (.digits (length - 1) 0) (position.next c) (gap.text.reverse ++ read) {} rest
        | none => do
          let char ← escaped? c
          scanDouble .none (position.next c) (char :: (gap.text.reverse ++ read)) {} rest
    | .digits left value => do
      let digit ← Text.digit? 16 c
      let value := value * 16 + digit
      match left with
      | 0 =>
        if value.isValidChar then
          scanDouble .none (position.next c) (Char.ofNat value :: read) {} rest
        else none
      | left + 1 => scanDouble (.digits left value) (position.next c) read {} rest

end TrafficMeter.Yaml
