import PaneLayout.Text.Blank

set_option autoImplicit false

/-!
# Grouping modes

Every level of a layout arranges its children in one way. The mode of the outermost level is
named by the user; below, the modes rotate with the depth.

## Main definitions

* `PaneLayout.Mode`: the four ways to arrange the children of a level.
* `PaneLayout.Mode.parse?`: the mode with a given name.
* `PaneLayout.Mode.next`: the mode one level deeper.
* `PaneLayout.Mode.splitHint`: what the host is told about the place of a new session.
-/

namespace PaneLayout

/-- **Split hints.** Where a new session goes relative to the current one: below it or beside it. -/
inductive SplitHint where
  | horizontal
  | vertical
  deriving DecidableEq, Repr

/-- **Grouping modes.** Every sibling in a window or a tab of its own, stacked from top to bottom,
or placed side by side. -/
inductive Mode where
  | window
  | tab
  | horizontal
  | vertical
  deriving DecidableEq, Repr

namespace Mode

/-- Tabs, unless something else is asked for. -/
instance : Inhabited Mode := ⟨.tab⟩

/-- **The mode one level deeper.** Windows hold tabs, tabs hold stacks, and below stacks and rows
alternate. -/
def next : Mode → Mode
  | .window => .tab
  | .tab => .horizontal
  | .horizontal => .vertical
  | .vertical => .horizontal

/-- The hint given for a split in this mode. Where windows and tabs go is up to the host. -/
def splitHint : Mode → Option SplitHint
  | .horizontal => some .horizontal
  | .vertical => some .vertical
  | .window => none
  | .tab => none

/-- The name of a mode in requests and messages. -/
def name : Mode → String
  | .window => "WINDOW"
  | .tab => "TAB"
  | .horizontal => "HORIZONTAL"
  | .vertical => "VERTICAL"

/-- The name of a mode where it is part of an instruction in the log. -/
def label : Mode → String
  | .window => "Window"
  | .tab => "Tab"
  | .horizontal => "Horizontal"
  | .vertical => "Vertical"

/-- **Reading a mode name.** Blanks around the name and the case of ASCII letters do not matter;
`pane` is another name for stacks. -/
def parse? (text : String) : Option Mode :=
  match String.ofList ((Text.trim text.toList).map Char.toUpper) with
  | "WINDOW" => some .window
  | "TAB" => some .tab
  | "HORIZONTAL" => some .horizontal
  | "PANE" => some .horizontal
  | "VERTICAL" => some .vertical
  | _ => none

end Mode

/-- The name of a hint in session requests. -/
def SplitHint.name : SplitHint → String
  | .horizontal => "HORIZONTAL"
  | .vertical => "VERTICAL"

end PaneLayout
