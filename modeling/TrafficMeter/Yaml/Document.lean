import TrafficMeter.Yaml.Node.Parser
import TrafficMeter.Yaml.Number
import TrafficMeter.Yaml.Token.Lexer

/-!
# YAML values as documents

Any scalar can be read as a text. A plain scalar can also be a number or stand for the absence of a value
(`readScalar`). A tag may say what a scalar is when it is kept (`keptScalar`), and a tag of one's own selects an
alternative (`Value.variant?`).
-/

namespace TrafficMeter.Yaml

/-- The tag of the standard type `name`. -/
def standardTag (name : String) : String :=
  "tag:yaml.org,2002:" ++ name

/-- The name in `tag`, if it is a tag of one's own. -/
def localTag? (tag : String) : Option String :=
  match tag.toList with
  | ['!'] => some "!"
  | '!' :: name => some (String.ofList name)
  | _ => none

/-- The word `text` stands for the absence of a value. -/
def isNull (text : String) : Bool :=
  ["null", "Null", "NULL", "~"].contains text

/-- The word `text` stands for a truth value. -/
def isBool (text : String) : Bool :=
  ["true", "True", "TRUE", "false", "False", "FALSE"].contains text

/-- What a plain scalar with `text` and without a tag is after it was kept. -/
def keptPlain (text : String) : Option Kept :=
  if text.isEmpty || isNull text then some .null
  else if isBool text then some .other
  else (keptInteger? text.toList).getD (some (.text text))

/-- What a scalar with `tag` and `text` is after it was kept. The text must fit the tag, and a scalar that
selects an alternative cannot be kept. -/
def keptTagged (tag text : String) : Option Kept :=
  if (localTag? tag).isSome then none
  else if tag = standardTag "bool" then if isBool text then some .other else none
  else if tag = standardTag "int" then (keptInteger? text.toList).join
  else if tag = standardTag "float" then if isFloat text then some .other else none
  else if tag = standardTag "null" then if isNull text then some .null else none
  else some (.text text)

/-- What a scalar with these `properties`, in this `style` and with this `text` is after it was kept. -/
def keptScalar (properties : Properties) (style : Style) (text : String) : Option Kept :=
  match properties.tag, style with
  | some tag, _ => keptTagged tag text
  | none, .plain => keptPlain text
  | none, _ => some (.text text)

/-- A scalar with these `properties` in this `style` may be read as a number: it is plain, or else literal and
tagged as an integer. -/
def isNumeric (properties : Properties) (style : Style) : Bool :=
  style == .plain || (style == .literal && properties.tag == some (standardTag "int"))

/-- All that a scalar with these `properties`, in this `style` and with this `text` can be read as. -/
def readScalar (properties : Properties) (style : Style) (text : String) : Scalar :=
  { text := some text
    natural := if isNumeric properties style then naturalBelow? UInt64.size text.toList else none
    isBlank := style == .plain && text.isEmpty
    kept := keptScalar properties style text }

/-- A node of a document in which aliases can be followed. -/
structure Value where
  /-- The node. -/
  node : Node
  /-- The nodes of the document that have an anchor, by its number. The first one with a number counts. -/
  anchors : List (Nat × Node)
  /-- How many aliases may be followed while a value is kept. -/
  maxJumps : Nat

namespace Value

/-- The node `node` of the same document as `value`. -/
def withNode (value : Value) (node : Node) : Value :=
  { value with node }

/-- The node of `value`, or the one that it is an alias for. -/
def target (value : Value) : Node :=
  match value.node with
  | .alias number => (value.anchors.lookup number).getD (.alias number)
  | node => node

/-- What `value` looks like from outside, with the alias at its root followed. -/
def view (value : Value) : View Value :=
  match value.target with
  | .alias _ => .scalar { kept := none }
  | .scalar properties style text => .scalar (readScalar properties style text)
  | .sequence _ items => .list (items.map value.withNode)
  | .mapping _ members => .mapping (members.map fun (key, item) => (value.withNode key, value.withNode item))

/-- The name by which `value` selects one of several alternatives: a tag without content, or else a text. -/
def variant? (value : Value) : Option String :=
  match value.target with
  | .scalar properties style text =>
    match properties.tag.bind localTag? with
    | some name => if style = .plain ∧ (text.isEmpty ∨ isNull text) then some name else none
    | none => some text
  | _ => none

/-- Follows an alias to one of `anchors` if one of `jumps` is left, and gives the jumps that are left then. -/
def follow? (anchors : List (Nat × Node)) (jumps : Nat) : Node → Option (Node × Nat)
  | .alias number =>
    match jumps with
    | 0 => none
    | jumps + 1 => (anchors.lookup number).map fun node => (node, jumps)
  | node => some (node, jumps)

/-- A node with these `properties` is a collection that selects an alternative. -/
def selects (properties : Properties) : Bool :=
  (properties.tag.bind localTag?).isSome

/-- Keeps `node`, in which at most `depth` collections may be inside each other, and gives the number of `jumps`
that are left. -/
def keep? (anchors : List (Nat × Node)) (depth jumps : Nat) (node : Node) : Option Nat := do
  let (node, jumps) ← follow? anchors jumps node
  match node, depth with
  | .scalar properties style text, _ =>
    guard (keptScalar properties style text).isSome
    return jumps
  | .sequence properties items, depth + 1 =>
    guard !selects properties
    items.foldlM (fun jumps item => keep? anchors depth jumps item) jumps
  | .mapping properties members, depth + 1 =>
    guard !selects properties
    members.foldlM
      (fun jumps (key, value) => do keep? anchors depth (← keep? anchors depth jumps key) value) jumps
  | _, _ => none

/-- How many collections may be inside each other in a value that is kept. -/
def keptDepth : Nat := 125

/-- `value` can be kept for later. -/
def canKeep (value : Value) : Bool :=
  (keep? value.anchors keptDepth value.maxJumps value.node).isSome

instance : Document Value where
  view := view
  variant? := variant?
  listsRecords := false
  canKeep := canKeep

/-- The number of jumps for each unit of a document's size. -/
def jumpsPerUnit : Nat := 100

/-- The value of the whole document with this `root`. -/
def ofRoot (root : Node) : Value :=
  { node := root, anchors := root.anchored [], maxJumps := jumpsPerUnit * root.addSize 0 }

/-- The value that `text` stands for, which must be a single document. -/
def parse? (text : String) : Option Value := do
  let tokens ← Token.ofText? text
  let root ← Node.ofTokens? tokens
  return ofRoot root

end Value

end TrafficMeter.Yaml
