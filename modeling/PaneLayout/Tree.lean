import PaneLayout.Layout.Node
import PaneLayout.Pane

set_option autoImplicit false

/-!
# Layout trees

A layout whose commands have become panes. Panes are numbered from left to right, in the order in
which the commands are read; the registry of the panes found so far is handed from node to node.

## Main definitions

* `PaneLayout.Tree`: a tree with panes at its leaves.
* `PaneLayout.Tree.panes`: the panes from left to right.
* `PaneLayout.Tree.representative?`: the leftmost pane.
* `PaneLayout.LayoutFault`: why a layout cannot be built.
* `PaneLayout.Node.convert`: the tree of a layout.
-/

namespace PaneLayout

/-- **Layout trees.** -/
inductive Tree where
  | pane (index : Nat)
  | group (children : List Tree)
  deriving Inhabited

namespace Tree

/-- Whether a tree is a group. -/
def isGroup : Tree → Bool
  | .group _ => true
  | .pane _ => false

mutual

/-- The panes at the leaves, from left to right. -/
def panes : Tree → List Nat
  | .pane i => [i]
  | .group children => panesOf children

/-- The panes at the leaves of some trees, from left to right. -/
def panesOf : List Tree → List Nat
  | [] => []
  | t :: ts => t.panes ++ panesOf ts

end

mutual

/-- **Representatives.** The leftmost pane, found by going down to the first child each time; none
if that ends in a group without children. -/
def representative? : Tree → Option Nat
  | .pane i => some i
  | .group children => firstRepresentative? children

/-- The representative of the first of some trees. -/
def firstRepresentative? : List Tree → Option Nat
  | [] => none
  | t :: _ => t.representative?

end

end Tree

/-- **Faults of a layout.** A node that is neither a command nor a group, a group without children,
or a mode name that is not known. -/
inductive LayoutFault where
  | malformedNode (path : Path) (found : Json)
  | emptyGroup (path : Path)
  | unknownMode (name : String)

/-- The wording of a fault. -/
def LayoutFault.message : LayoutFault → String
  | .malformedNode path found =>
    s!"Malformed layout node at '{path.text}': expected a command or a list, found {found.render}"
  | .emptyGroup path => s!"Empty layout group at '{path.text}'"
  | .unknownMode name =>
    s!"Unknown layout mode '{name}' (expected window, tab, horizontal, vertical or pane)"

namespace Node

mutual

/-- **Conversion.** The tree of the node at `path`, with its panes added to those in the registry.
The first fault in reading order ends it. -/
def convert (path : Path) : Node → Registry → Except LayoutFault (Tree × Registry)
  | .command text, reg => .ok (.pane reg.size, reg.allocate text)
  | .group children, reg =>
    if children.isEmpty then .error (.emptyGroup path)
    else do
      let (trees, reg) ← convertChildren path 0 children reg
      return (.group trees, reg)
  | .invalid value, _ => .error (.malformedNode path value)

/-- The trees of the children of the node at `path`, from the child with the given index on. -/
def convertChildren (path : Path) (index : Nat) :
    List Node → Registry → Except LayoutFault (List Tree × Registry)
  | [], reg => .ok ([], reg)
  | n :: ns, reg => do
    let (t, reg) ← convert (path ++ [index]) n reg
    let (ts, reg) ← convertChildren path (index + 1) ns reg
    return (t :: ts, reg)

end

end Node

end PaneLayout
