import Clearance.Yaml.Tag

/-!
# YAML nodes

The tree that a text describes. An alias stands for a node with an anchor, which it
names by a number, and so can stand for a node that contains it or comes after it;
`Node.anchored` lists the nodes that there are to name.
-/

namespace Clearance.Yaml

/-- What stands in front of a node: the number of its anchor, and its tag. -/
structure Properties where
  anchor : Option Nat
  tag : Option Tag

namespace Properties

def none : Properties := ⟨.none, .none⟩

def isPresent (p : Properties) : Bool := p.anchor.isSome || p.tag.isSome

end Properties

inductive Node where
  | scalar (properties : Properties) (text : String) (plain : Bool)
  | sequence (properties : Properties) (items : List Node)
  | mapping (properties : Properties) (pairs : List (Node × Node))
  | alias (anchor : Nat)

namespace Node

/-- The scalar that stands where nothing is written. -/
def absent (p : Properties) : Node := .scalar p "" true

def properties : Node → Properties
  | .scalar p _ _ => p
  | .sequence p _ => p
  | .mapping p _ => p
  | .alias _ => .none

/-- The node under the number of its anchor, if it has one. -/
def entry (n : Node) : List (Nat × Node) := (n.properties.anchor.map (·, n)).toList

mutual

/-- The nodes with anchors, in the order in which they begin. -/
def anchored : Node → List (Nat × Node)
  | .scalar p text plain => entry (.scalar p text plain)
  | .sequence p items => entry (.sequence p items) ++ anchoredItems items
  | .mapping p pairs => entry (.mapping p pairs) ++ anchoredPairs pairs
  | .alias _ => []

def anchoredItems : List Node → List (Nat × Node)
  | [] => []
  | n :: rest => n.anchored ++ anchoredItems rest

def anchoredPairs : List (Node × Node) → List (Nat × Node)
  | [] => []
  | (key, n) :: rest => key.anchored ++ n.anchored ++ anchoredPairs rest

end

mutual

/-- The size of a node as it is written: a scalar and an alias count once, and a
collection twice, for its start and for its end. -/
def size : Node → Nat
  | .scalar _ _ _ => 1
  | .sequence _ items => sizeItems items + 2
  | .mapping _ pairs => sizePairs pairs + 2
  | .alias _ => 1

def sizeItems : List Node → Nat
  | [] => 0
  | n :: rest => n.size + sizeItems rest

def sizePairs : List (Node × Node) → Nat
  | [] => 0
  | (key, n) :: rest => key.size + n.size + sizePairs rest

end

end Node

end Clearance.Yaml
