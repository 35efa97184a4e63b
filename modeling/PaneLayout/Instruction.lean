import PaneLayout.Tree

set_option autoImplicit false

/-!
# Instructions

A layout tree is compiled into a flat list of instructions. The siblings of a level are all split
off first; then each child group is entered in turn, one mode further.

## Main definitions

* `PaneLayout.Instruction`: the steps of a layout.
* `PaneLayout.Tree.compile`: the instructions that build a tree.
-/

namespace PaneLayout

/-- **Instructions.** Ask for a session that will show the pane, focus the session of the pane if
there is one already, or run the command of the pane in the session that has the focus. -/
inductive Instruction where
  | split (mode : Mode) (pane : Nat)
  | jump (pane : Nat)
  | cmd (pane : Nat)
  deriving DecidableEq, Repr

namespace Instruction

/-- The pane that an instruction is about. -/
def pane : Instruction → Nat
  | .split _ p => p
  | .jump p => p
  | .cmd p => p

/-- Whether an instruction asks for a session. -/
def isSplit : Instruction → Bool
  | .split _ _ => true
  | _ => false

/-- An instruction as shown in the log. -/
def shown : Instruction → String
  | .split m p => s!"Split \x7b mode: {m.label}, pane: {p} \x7d"
  | .jump p => s!"Jump \x7b pane: {p} \x7d"
  | .cmd p => s!"Cmd \x7b pane: {p} \x7d"

/-- An instruction as a JSON value. -/
def toJson : Instruction → Json
  | .split m p => .object [("action", .string "split"), ("mode", .string m.name), ("pane", .int p)]
  | .jump p => .object [("action", .string "jump"), ("pane", .int p)]
  | .cmd p => .object [("action", .string "cmd"), ("pane", .int p)]

end Instruction

namespace Tree

/-- The representative of the tree at `path`. -/
def anchor (path : Path) (t : Tree) : Except LayoutFault Nat :=
  match t.representative? with
  | some p => .ok p
  | none => .error (.emptyGroup path)

/-- **One step per child.** The first child is there already and only focused, every other child is
split off. Commands run in new panes, and in the first one of the outermost level. -/
def siblings (mode : Mode) (isRoot : Bool) (path : Path) :
    Nat → List Tree → Except LayoutFault (List Instruction)
  | _, [] => .ok []
  | index, t :: ts => do
    let target ← anchor (path ++ [index]) t
    let rest ← siblings mode isRoot path (index + 1) ts
    let place := if index = 0 then .jump target else .split mode target
    return if isRoot ∨ 0 < index then place :: .cmd target :: rest else place :: rest

mutual

/-- **Compiling the tree at `path`.** A lone pane is only focused. A group splits off its children,
compiles the groups among them, and ends where it began. -/
def compileAt (mode : Mode) (isRoot : Bool) (path : Path) :
    Tree → Except LayoutFault (List Instruction)
  | .pane i => .ok [.jump i]
  | .group children => do
    let home ← anchor path (.group children)
    let opening ← siblings mode isRoot path 0 children
    let inner ← compileGroups mode.next path 0 children
    return opening ++ inner ++ [.jump home]

/-- The instructions of the groups among the children of the node at `path`, from the child with
the given index on. -/
def compileGroups (mode : Mode) (path : Path) :
    Nat → List Tree → Except LayoutFault (List Instruction)
  | _, [] => .ok []
  | index, t :: ts => do
    let here ← if t.isGroup then compileAt mode false (path ++ [index]) t else .ok []
    let rest ← compileGroups mode path (index + 1) ts
    return here ++ rest

end

/-- **Compiling.** At the outermost level, `isRoot`, the first child gets its command too; further
in, it got it one level up. -/
def compile (t : Tree) (mode : Mode) (isRoot : Bool) : Except LayoutFault (List Instruction) :=
  compileAt mode isRoot [] t

end Tree

end PaneLayout
