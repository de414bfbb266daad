import TrafficMeter.Yaml.Token.Basic

/-!
# YAML nodes

A YAML document is a tree of nodes (`Node`), some of which have an anchor. An alias stands for the node with a
certain anchor, which may even be one that the alias is inside of, so aliases are kept as they are.
-/

namespace TrafficMeter.Yaml

/-- What is said about a node besides its content. -/
structure Properties where
  /-- The number of its anchor. -/
  anchor : Option Nat := none
  /-- Its tag, written in full. -/
  tag : Option String := none
deriving DecidableEq, Repr

/-- A node of a YAML document. -/
inductive Node where
  /-- The node whose anchor has this number. -/
  | alias (number : Nat)
  /-- A scalar. -/
  | scalar (properties : Properties) (style : Style) (text : String)
  /-- A sequence. -/
  | sequence (properties : Properties) (items : List Node)
  /-- A mapping. The members are in order, and some may have the same key. -/
  | mapping (properties : Properties) (members : List (Node × Node))
deriving Repr

namespace Node

/-- The node where nothing is written. -/
def blank : Node :=
  .scalar {} .plain ""

/-- The properties of a node. An alias has none of its own. -/
def properties : Node → Properties
  | .alias _ => {}
  | .scalar properties .. => properties
  | .sequence properties _ => properties
  | .mapping properties _ => properties

/-- `node` together with the number of its anchor, if it has one. -/
def anchor? (node : Node) : Option (Nat × Node) :=
  node.properties.anchor.map fun number => (number, node)

mutual

/-- The nodes with an anchor, from the last one to the first, in front of those in `found`. -/
def anchored (found : List (Nat × Node)) : Node → List (Nat × Node)
  | .alias _ => found
  | .scalar properties style text => (scalar properties style text).anchor?.toList ++ found
  | .sequence properties items =>
    anchoredItems ((sequence properties items).anchor?.toList ++ found) items
  | .mapping properties members =>
    anchoredMembers ((mapping properties members).anchor?.toList ++ found) members

/-- The nodes with an anchor among items, in front of those in `found`. -/
def anchoredItems (found : List (Nat × Node)) : List Node → List (Nat × Node)
  | [] => found
  | item :: items => anchoredItems (item.anchored found) items

/-- The nodes with an anchor among members, in front of those in `found`. -/
def anchoredMembers (found : List (Nat × Node)) : List (Node × Node) → List (Nat × Node)
  | [] => found
  | (key, value) :: members => anchoredMembers (value.anchored (key.anchored found)) members

end

mutual

/-- The size of a node, added to `size`. A collection counts twice, for its start and its end. -/
def addSize (size : Nat) : Node → Nat
  | .alias _ => size + 1
  | .scalar .. => size + 1
  | .sequence _ items => addSizeItems (size + 2) items
  | .mapping _ members => addSizeMembers (size + 2) members

/-- The size of some items, added to `size`. -/
def addSizeItems (size : Nat) : List Node → Nat
  | [] => size
  | item :: items => addSizeItems (item.addSize size) items

/-- The size of some members, added to `size`. -/
def addSizeMembers (size : Nat) : List (Node × Node) → Nat
  | [] => size
  | (key, value) :: members => addSizeMembers (value.addSize (key.addSize size)) members

end

end Node

end TrafficMeter.Yaml
