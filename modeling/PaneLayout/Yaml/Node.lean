import PaneLayout.Yaml.Token

set_option autoImplicit false

/-!
# Nodes

A document describes scalars, sequences and mappings. A node may carry the number of an anchor, and
an alias stands for the node that carries its number.

## Main definitions

* `PaneLayout.Yaml.Node`: a node.
* `PaneLayout.Yaml.Node.eventCount`: the size of a node.
* `PaneLayout.Yaml.Node.definitions`: the nodes that aliases may stand for.
* `PaneLayout.Yaml.Document`: the root of a document.
-/

namespace PaneLayout.Yaml

/-- **Labels.** The number of the anchor of a node, and its tag. -/
structure Label where
  anchor : Option Nat
  tag : Option TagText
  deriving DecidableEq, Repr

/-- A node that carries nothing. -/
def Label.none : Label := ⟨.none, .none⟩

/-- **Nodes.** -/
inductive Node where
  | scalar (label : Label) (style : ScalarStyle) (text : List Char)
  | sequence (label : Label) (items : List Node)
  | mapping (label : Label) (entries : List (Node × Node))
  | alias (target : Nat)
  deriving Inhabited, Repr

namespace Node

/-- What stands in place of a node that is left out. -/
def empty (label : Label) : Node := .scalar label .plain []

mutual

/-- **The size of a node:** one for scalars and aliases, two for every pair of brackets. -/
def eventCount : Node → Nat
  | .scalar _ _ _ => 1
  | .sequence _ items => 2 + itemCount items
  | .mapping _ entries => 2 + entryCount entries
  | .alias _ => 1

/-- The size of the items of a sequence. -/
def itemCount : List Node → Nat
  | [] => 0
  | n :: ns => n.eventCount + itemCount ns

/-- The size of the entries of a mapping. -/
def entryCount : List (Node × Node) → Nat
  | [] => 0
  | (k, v) :: es => k.eventCount + v.eventCount + entryCount es

end

mutual

/-- The nodes below a node, itself included, that aliases may stand for, in reading order. -/
def definitions : Node → List (Nat × Node)
  | .scalar label style text => (label.anchor.map fun a => (a, .scalar label style text)).toList
  | .sequence label items =>
    (label.anchor.map fun a => (a, .sequence label items)).toList ++ itemDefinitions items
  | .mapping label entries =>
    (label.anchor.map fun a => (a, .mapping label entries)).toList ++ entryDefinitions entries
  | .alias _ => []

/-- The definitions in the items of a sequence. -/
def itemDefinitions : List Node → List (Nat × Node)
  | [] => []
  | n :: ns => n.definitions ++ itemDefinitions ns

/-- The definitions in the entries of a mapping. -/
def entryDefinitions : List (Node × Node) → List (Nat × Node)
  | [] => []
  | (k, v) :: es => k.definitions ++ (v.definitions ++ entryDefinitions es)

end

end Node

/-- **Documents.** A text without a document has no root. -/
structure Document where
  root : Option Node
  deriving Inhabited, Repr

namespace Document

/-- The size of a document. -/
def eventCount (d : Document) : Nat := (d.root.map Node.eventCount).getD 1

/-- The node an alias stands for: of several nodes with its number the last one. -/
def target? (d : Document) (n : Nat) : Option Node :=
  d.root.bind fun root => root.definitions.reverse.lookup n

end Document

end PaneLayout.Yaml
