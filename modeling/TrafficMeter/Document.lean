/-!
# Documents

Descriptions come in more than one notation. What is common to all of them is the class `Document`: how a
document looks from outside (`View`). It is a scalar, a list or a mapping, and the parts of lists and mappings
are documents again. A `Scalar` says what it can be read as, since notations differ in that.

Some parts of a document are kept for later (`Kept`), because it is not known yet what they will be read as. Not
every document can be kept, and what is kept is read by rules of its own (`Document.kept?`).
-/

namespace TrafficMeter

/-- What a scalar is after it was kept for later, which not all scalars can be. -/
inductive Kept where
  /-- The absence of a value. -/
  | null
  /-- An unsigned integer. -/
  | natural (value : Nat)
  /-- Zero as a signed integer. -/
  | signedZero
  /-- A text. -/
  | text (text : String)
  /-- Something else. -/
  | other
deriving DecidableEq, Repr

/-- What a scalar can be read as. It may be more than one of these. -/
structure Scalar where
  /-- The text, if it can be read as a text. -/
  text : Option String := none
  /-- The number, if it can be read as an unsigned integer. -/
  natural : Option Nat := none
  /-- Nothing is written, so it can also be read as an empty list or mapping. -/
  isBlank : Bool := false
  /-- What it is after it was kept for later, if it can be kept. -/
  kept : Option Kept := some .other
deriving DecidableEq, Repr

/-- What a document looks like from outside, where its parts are documents of type `α`. -/
inductive View (α : Type) where
  /-- A scalar, with all that it can be read as. -/
  | scalar (reading : Scalar)
  /-- A list of `items`. -/
  | list (items : List α)
  /-- A mapping. The `members` are in order, and some may have the same key. -/
  | mapping (members : List (α × α))
deriving Repr

/-- A type `α` of documents in one notation. -/
class Document (α : Type) where
  /-- What a document looks like from outside. -/
  view : α → View α
  /-- The name by which a document selects one of several alternatives. -/
  variant? : α → Option String
  /-- A record may be written as the list of its fields in order. -/
  listsRecords : Bool
  /-- A document can be kept for later. -/
  canKeep : α → Bool

namespace Document

variable {α : Type} [Document α]

/-- The scalar that `document` is, if it is one. -/
def scalar? (document : α) : Option Scalar :=
  match view document with
  | .scalar reading => some reading
  | _ => none

/-- The text that `document` can be read as. -/
def text? (document : α) : Option String :=
  (scalar? document).bind Scalar.text

/-- The number below `limit` that `document` can be read as. -/
def below? (limit : Nat) (document : α) : Option Nat :=
  ((scalar? document).bind Scalar.natural).filter (· < limit)

/-- The 32-bit word that `document` can be read as. -/
def uint32? (document : α) : Option UInt32 :=
  (below? UInt32.size document).map UInt32.ofNat

/-- The 64-bit word that `document` can be read as. -/
def uint64? (document : α) : Option UInt64 :=
  (below? UInt64.size document).map UInt64.ofNat

/-- The items of `document`, if it is a list or blank. -/
def items? (document : α) : Option (List α) :=
  match view document with
  | .list items => some items
  | .scalar reading => if reading.isBlank then some [] else none
  | .mapping _ => none

/-- The members of `document`, if it is a mapping whose keys are all texts, or blank. -/
def members? (document : α) : Option (List (String × α)) :=
  match view document with
  | .mapping members => members.mapM fun (key, value) => (text? key).map fun key => (key, value)
  | .scalar reading => if reading.isBlank then some [] else none
  | .list _ => none

/-- The value of the field `name` among `members`, `some none` if it is missing. There is no answer if it occurs
more than once. -/
def field? (members : List (String × α)) (name : String) : Option (Option α) :=
  match members.filter fun member => member.1 = name with
  | [] => some none
  | [member] => some (some member.2)
  | _ => none

/-- The fields of a record in the order of `names`, `none` for those that are missing. A mapping may have other
members. A list gives the fields in order and may leave out the last ones. -/
def fields? (names : List String) (document : α) : Option (List (Option α)) :=
  match view document with
  | .list items =>
    if listsRecords α && items.length ≤ names.length then
      some (items.map some ++ List.replicate (names.length - items.length) none)
    else none
  | _ => do
    let members ← members? document
    names.mapM (field? members)

/-- What `read` makes of a field, or `default` where the field is missing. -/
def orDefault {β : Type} (default : β) (read : α → Option β) : Option α → Option β
  | none => some default
  | some document => read document

/-- What `read` makes of every item that `document` lists. -/
def list? {β : Type} (read : α → Option β) (document : α) : Option (List β) := do
  let items ← items? document
  items.mapM read

/-- What `document` is after it was kept, if it is a scalar that can be kept. -/
def kept? (document : α) : Option Kept :=
  (scalar? document).bind Scalar.kept

/-- The 64-bit word that `document` can be read as after it was kept, where a signed zero is `0`. -/
def keptUInt64? (document : α) : Option UInt64 :=
  match kept? document with
  | some (.natural value) => if value < UInt64.size then some (UInt64.ofNat value) else none
  | some .signedZero => some 0
  | _ => none

end Document

end TrafficMeter
