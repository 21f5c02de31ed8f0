import NoteTemplate.Text.Basic

/-!
# Nodes of YAML

* `Node`: a scalar, a sequence, a mapping, or a node that stands for another one.
* `Node.anchors`: the nodes that others can stand for.
* `Node.size`: how much is written in a node.
-/

namespace NoteTemplate.Yaml

/-- What a node is given in addition to its content. -/
structure Properties where
  anchor : Option Nat
  tag : Option Text
deriving DecidableEq, Repr, Inhabited

/-- A node. Anchors are numbers. -/
inductive Node
  | scalar (properties : Properties) (text : Text) (plain : Bool)
  | sequence (properties : Properties) (items : List Node)
  | mapping (properties : Properties) (members : List (Node × Node))
  | repeated (anchor : Nat)
deriving Repr, Inhabited

namespace Node

/-- A node that is not written. -/
def absent : Node := .scalar ⟨none, none⟩ [] true

def properties : Node → Properties
  | scalar p _ _ => p
  | sequence p _ => p
  | mapping p _ => p
  | repeated _ => ⟨none, none⟩

/-- The anchor of a node, if it has one, and the node. -/
def ownAnchor (n : Node) : List (Nat × Node) :=
  match n.properties.anchor with
  | some anchor => [(anchor, n)]
  | none => []

mutual

/-- The anchors in a node and the nodes that have them, the node that begins last first. -/
def anchors : Node → List (Nat × Node)
  | n@(.scalar ..) => n.ownAnchor
  | n@(.sequence _ items) => itemAnchors items ++ n.ownAnchor
  | n@(.mapping _ members) => memberAnchors members ++ n.ownAnchor
  | .repeated _ => []

/-- The same for the items of a sequence. -/
def itemAnchors : List Node → List (Nat × Node)
  | [] => []
  | n :: ns => itemAnchors ns ++ anchors n

/-- The same for the members of a mapping. -/
def memberAnchors : List (Node × Node) → List (Nat × Node)
  | [] => []
  | (k, v) :: ms => memberAnchors ms ++ anchors v ++ anchors k

end

mutual

/-- The number of scalars, of nodes that stand for others, and of starts and ends of
collections. -/
def size : Node → Nat
  | .scalar .. => 1
  | .sequence _ items => itemsSize items + 2
  | .mapping _ members => membersSize members + 2
  | .repeated _ => 1

/-- The same for the items of a sequence. -/
def itemsSize : List Node → Nat
  | [] => 0
  | n :: ns => size n + itemsSize ns

/-- The same for the members of a mapping. -/
def membersSize : List (Node × Node) → Nat
  | [] => 0
  | (k, v) :: ms => size k + size v + membersSize ms

end

/-- The number of look-ups that it takes to find the node that a node stands for. -/
def lookups : Node → Nat
  | .repeated _ => 1
  | _ => 0

/-- The node that a node stands for, which is the first with that anchor. -/
def target (n : Node) (anchors : List (Nat × Node)) : Node :=
  match n with
  | .repeated anchor => (anchors.lookup anchor).getD absent
  | n => n

end Node

end NoteTemplate.Yaml
