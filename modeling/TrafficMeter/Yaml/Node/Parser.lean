import TrafficMeter.Yaml.Node.Basic

/-!
# Reading YAML nodes

The grammar of documents over their tokens. Where a node is missing it is blank (`ReadNode.orBlank`). The reading
functions descend with a bound on their depth, which the number of tokens provides.
-/

namespace TrafficMeter.Yaml

/-- How far the tokens of a document have been read. -/
structure NodeReader where
  /-- The tokens to come. -/
  tokens : List Token
  /-- What the tag handles stand for. -/
  handles : List (String × String)
  /-- The number of the anchor that each name stands for. -/
  names : List (String × Nat) := []
deriving Repr

/-- Reading of nodes, which may fail. -/
abbrev ReadNode := StateT NodeReader Option

namespace ReadNode

/-- The token at the front. -/
def peek : ReadNode (Option Token) :=
  return (← get).tokens.head?

/-- Skips the token at the front. -/
def advance : ReadNode Unit :=
  modify fun reader => { reader with tokens := reader.tokens.tail }

/-- Takes the token at the front. -/
def next : ReadNode (Option Token) := do
  let token ← peek
  advance
  return token

/-- One of `tokens` is at the front. -/
def isAt (tokens : List Token) : ReadNode Bool :=
  return (← peek).any tokens.contains

/-- Skips `token`, which has to be at the front. -/
def expect (token : Token) : ReadNode Unit := do
  guard ((← next) = some token)

/-- Gives `name` to the node that comes next. The anchor's number is the count of names so far, so after a name
was given again the next new one gets the same number as it. -/
def nameAnchor (name : String) : ReadNode Nat := do
  let reader ← get
  let number := reader.names.length
  set { reader with names := (name, number) :: reader.names.filter (·.1 ≠ name) }
  return number

/-- The full text of `tag`. Its handle must stand for something. -/
def fullTag (tag : TagName) : ReadNode String := do
  if tag.handle.isEmpty then return tag.suffix
  let some meaning := (← get).handles.lookup tag.handle | failure
  return meaning ++ tag.suffix

/-- Reads an anchor, if there is one. -/
def anchor? : ReadNode (Option Nat) := do
  match ← peek with
  | some (.anchor name) =>
    advance
    return some (← nameAnchor name)
  | _ => return none

/-- Reads a tag, if there is one. -/
def tag? : ReadNode (Option String) := do
  match ← peek with
  | some (.tag name) =>
    advance
    return some (← fullTag name)
  | _ => return none

/-- Reads the properties of a node, in any order. -/
def properties : ReadNode Properties := do
  match ← tag? with
  | some tag => return { anchor := ← anchor?, tag := some tag }
  | none => return { anchor := ← anchor?, tag := ← tag? }

/-- Reads a node by `read`, or takes a blank one if one of `stops` is at the front. -/
def orBlank (stops : List Token) (read : ReadNode Node) : ReadNode Node := do
  if ← isAt stops then return .blank else read

/-- Reads the value of a member by `read` after a colon. Without a colon it is blank. -/
def memberValue (read : ReadNode Node) : ReadNode Node := do
  if ← isAt [.value] then
    advance
    read
  else return .blank

/-- Reads the key of a pair inside brackets by `read`. Where it is missing the token in its place is skipped. -/
def pairKey (read : ReadNode Node) : ReadNode Node := do
  if ← isAt [.value, .flowEntry, .flowSequenceEnd] then
    advance
    return .blank
  else read

mutual

/-- Reads a node. Block collections are possible only if `block`, and a sequence that is not indented only if
`indentless`. A node of which there are only properties is blank. -/
def node (block indentless : Bool) : Nat → ReadNode Node
  | 0 => failure
  | depth + 1 => do
    if let some (.alias name) ← peek then
      advance
      let some number := (← get).names.lookup name | failure
      return .alias number
    let properties ← properties
    match ← peek, block, indentless with
    | some (.scalar style text), _, _ =>
      advance
      return .scalar { properties with tag := properties.tag.filter (· ≠ "!") } style text
    | some .flowSequenceStart, _, _ =>
      advance
      return .sequence properties (← flowItems [] depth)
    | some .flowMappingStart, _, _ =>
      advance
      return .mapping properties (← flowMembers [] depth)
    | some .blockSequenceStart, true, _ =>
      advance
      return .sequence properties (← blockItems [] depth)
    | some .blockMappingStart, true, _ =>
      advance
      return .mapping properties (← blockMembers [] depth)
    | some .blockEntry, _, true => return .sequence properties (← indentlessItems [] depth)
    | _, _, _ =>
      guard (properties ≠ {})
      return .scalar properties .plain ""

/-- Reads the items of a sequence by indentation, after `items` in reverse. -/
def blockItems (items : List Node) : Nat → ReadNode (List Node)
  | 0 => failure
  | depth + 1 => do
    match ← next with
    | some .blockEntry =>
      let item ← orBlank [.blockEntry, .blockEnd] (node true false depth)
      blockItems (item :: items) depth
    | some .blockEnd => return items.reverse
    | _ => failure

/-- Reads the items of a sequence that is not indented further than the mapping around it, after `items` in
reverse. -/
def indentlessItems (items : List Node) : Nat → ReadNode (List Node)
  | 0 => failure
  | depth + 1 => do
    if ← isAt [.blockEntry] then
      advance
      let item ← orBlank [.blockEntry, .key, .value, .blockEnd] (node true false depth)
      indentlessItems (item :: items) depth
    else return items.reverse

/-- Reads the members of a mapping by indentation, after `members` in reverse. -/
def blockMembers (members : List (Node × Node)) : Nat → ReadNode (List (Node × Node))
  | 0 => failure
  | depth + 1 => do
    match ← next with
    | some .key =>
      let key ← orBlank [.key, .value, .blockEnd] (node true true depth)
      let value ← memberValue (orBlank [.key, .value, .blockEnd] (node true true depth))
      blockMembers ((key, value) :: members) depth
    | some .blockEnd => return members.reverse
    | _ => failure

/-- Reads the items of a sequence in brackets, after `items` in reverse. A pair among them is a mapping of its
own. -/
def flowItems (items : List Node) : Nat → ReadNode (List Node)
  | 0 => failure
  | depth + 1 => do
    if !items.isEmpty && !(← isAt [.flowSequenceEnd]) then
      expect .flowEntry
    match ← peek with
    | some .flowSequenceEnd =>
      advance
      return items.reverse
    | some .key =>
      advance
      let key ← pairKey (node false false depth)
      let value ← memberValue (orBlank [.flowEntry, .flowSequenceEnd] (node false false depth))
      flowItems (.mapping {} [(key, value)] :: items) depth
    | _ =>
      let item ← node false false depth
      flowItems (item :: items) depth

/-- Reads the members of a mapping in braces, after `members` in reverse. A node without a colon is a key with a
blank value. -/
def flowMembers (members : List (Node × Node)) : Nat → ReadNode (List (Node × Node))
  | 0 => failure
  | depth + 1 => do
    if !members.isEmpty && !(← isAt [.flowMappingEnd]) then
      expect .flowEntry
    match ← peek with
    | some .flowMappingEnd =>
      advance
      return members.reverse
    | some .key =>
      advance
      let key ← orBlank [.value, .flowEntry, .flowMappingEnd] (node false false depth)
      let value ← memberValue (orBlank [.flowEntry, .flowMappingEnd] (node false false depth))
      flowMembers ((key, value) :: members) depth
    | _ =>
      let key ← node false false depth
      flowMembers ((key, .blank) :: members) depth

end

end ReadNode

namespace Token

/-- The token is a directive. -/
def isDirective : Token → Bool
  | .version .. => true
  | .tagHandle .. => true
  | _ => false

/-- The version of a version directive. -/
def version? : Token → Option (Nat × Nat)
  | .version major minor => some (major, minor)
  | _ => none

/-- What a tag directive says about a handle. -/
def tagHandle? : Token → Option (String × String)
  | .tagHandle handle meaning => some (handle, meaning)
  | _ => none

end Token

namespace Node

/-- What tag handles stand for when no directive says otherwise. -/
def defaultHandles : List (String × String) :=
  [("!", "!"), ("!!", "tag:yaml.org,2002:")]

/-- What tag handles stand for after `directives`. There is at most one version, which must be known, and at most
one meaning for each handle. -/
def handles? (directives : List Token) : Option (List (String × String)) :=
  let versions := directives.filterMap Token.version?
  let handles := directives.filterMap Token.tagHandle?
  if versions.length ≤ 1 ∧ (∀ version ∈ versions, version = (1, 1) ∨ version = (1, 2)) ∧
      (handles.map Prod.fst).Nodup then
    some (handles ++ defaultHandles)
  else none

/-- A document without content ends in front of such a token, or at the end of the text. -/
def endsDocument : Option Token → Bool
  | none => true
  | some token => token.isDirective || token == .documentStart || token == .documentEnd

/-- Reads the root of a document from `tokens`, after which there may be nothing but marks of its end. -/
def root? (handles : List (String × String)) (tokens : List Token) : Option Node := do
  let (root, reader) ← (ReadNode.node true false (2 * tokens.length + 2)).run { tokens, handles }
  guard (reader.tokens.all (· == .documentEnd))
  return root

/-- The root of the only document that `tokens` stand for. Directives must be followed by a mark, and only behind
a mark a document may be empty, unless there are no tokens at all. -/
def ofTokens? (tokens : List Token) : Option Node := do
  let (directives, rest) := tokens.span Token.isDirective
  let handles ← handles? directives
  match rest with
  | .documentStart :: content =>
    if endsDocument content.head? then
      guard (content.all (· == .documentEnd))
      return .blank
    else root? handles content
  | [] =>
    guard directives.isEmpty
    return .blank
  | _ =>
    guard directives.isEmpty
    root? handles rest

end Node

end TrafficMeter.Yaml
