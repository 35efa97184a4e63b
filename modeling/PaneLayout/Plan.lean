import PaneLayout.Instruction

set_option autoImplicit false

/-!
# Plans

A plan is a layout ready to be played: its panes and the instructions that build them.

## Main definitions

* `PaneLayout.Plan`: panes and instructions.
* `PaneLayout.Plan.build`: the plan of a configuration.
-/

namespace PaneLayout

/-- **Plans.** The mode of the outermost level, the panes in reading order, and the instructions in
the order of execution. -/
structure Plan where
  entry : Mode
  panes : Registry
  queue : List Instruction
  deriving DecidableEq, Repr

/-- The mode named by a configuration or else by default. -/
def LayoutConfig.entryMode (config : LayoutConfig) (defaultEntry : String) :
    Except LayoutFault Mode :=
  let name := config.entry.getD defaultEntry
  match Mode.parse? name with
  | some mode => .ok mode
  | none => .error (.unknownMode name)

/-- **Building a plan.** The entry mode is looked at first, then the layout in reading order. The
first fault leaves no plan at all. -/
def Plan.build (config : LayoutConfig) (defaultEntry : String) : Except LayoutFault Plan := do
  let entry ← config.entryMode defaultEntry
  let (tree, panes) ← config.layout.convert [] .empty
  let queue ← tree.compile entry true
  return ⟨entry, panes, queue⟩

end PaneLayout
