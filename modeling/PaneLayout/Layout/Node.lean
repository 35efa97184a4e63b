import PaneLayout.Json.Printer

set_option autoImplicit false

/-!
# Layouts as requested

A layout is a nested list whose leaves are shell commands. Whatever else stands in it is kept, so
that the first fault can be reported with its place.

## Main definitions

* `PaneLayout.Node`: a node of a layout.
* `PaneLayout.Node.commandCount`: the number of commands below a node.
* `PaneLayout.Path`: the place of a node, as child indices from the root.
* `PaneLayout.LayoutConfig`: a layout with the mode of its outermost level.
* `PaneLayout.LayoutRequest`: what to build and where.
-/

namespace PaneLayout

/-- **Layout nodes.** A command, an ordered group, or a value that is neither. -/
inductive Node where
  | command (text : String)
  | group (children : List Node)
  | invalid (value : Json)
  deriving Inhabited

namespace Node

mutual

/-- The number of commands at or below a node. -/
def commandCount : Node → Nat
  | .command _ => 1
  | .group children => commandCounts children
  | .invalid _ => 0

/-- The number of commands at or below some nodes. -/
def commandCounts : List Node → Nat
  | [] => 0
  | n :: ns => n.commandCount + commandCounts ns

end

/-- Whether a node is a group. -/
def isGroup : Node → Bool
  | .group _ => true
  | _ => false

end Node

/-- **Places in a layout.** The child indices on the way down from the root. -/
abbrev Path := List Nat

/-- The text of a place: a slash before every index, and one slash for the root. -/
def Path.text (path : Path) : String :=
  if path.isEmpty then "/" else String.join (path.map fun i => s!"/{i}")

/-- **Configurations.** The layout and, if given, the name of the mode of its outermost level. -/
structure LayoutConfig where
  layout : Node
  entry : Option String
  deriving Inhabited

/-- **Requests.** What to build, and the directory in which every new session starts. -/
structure LayoutRequest where
  config : LayoutConfig
  cwd : String
  deriving Inhabited

end PaneLayout
