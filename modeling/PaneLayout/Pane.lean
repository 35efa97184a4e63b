import PaneLayout.Session

set_option autoImplicit false

/-!
# Panes

Every command of a layout gets a pane. Panes are numbered in reading order, and each is bound to
a session once the host has shown which.

## Main definitions

* `PaneLayout.Pane`: a command, its number and its session.
* `PaneLayout.Registry`: all panes of a layout, found by their number.
* `PaneLayout.Registry.allocate`: adds the next pane.
* `PaneLayout.Registry.bind`: binds a pane that has no session yet.
-/

namespace PaneLayout

/-- **Panes.** One command of a layout; the session is not known from the start. -/
structure Pane where
  command : String
  index : Nat
  session : Option SessionId
  deriving DecidableEq, Repr

/-- **Binding.** A pane is bound at most once; a bound pane stays as it is. -/
def Pane.bind (pane : Pane) (id : SessionId) : Pane :=
  { pane with session := pane.session <|> some id }

/-- **Registries.** The panes in the order of their numbers. -/
structure Registry where
  panes : List Pane
  deriving DecidableEq, Repr

namespace Registry

/-- The registry without panes. -/
def empty : Registry := ⟨[]⟩

instance : Inhabited Registry := ⟨empty⟩

/-- The number of panes. -/
def size (reg : Registry) : Nat := reg.panes.length

/-- The pane with the given number. -/
def get? (reg : Registry) (index : Nat) : Option Pane := reg.panes[index]?

/-- **Adding a pane.** Its number is the number of panes before it. -/
def allocate (reg : Registry) (command : String) : Registry :=
  ⟨reg.panes ++ [⟨command, reg.size, none⟩]⟩

/-- The session bound to a pane. -/
def session? (reg : Registry) (index : Nat) : Option SessionId :=
  (reg.get? index).bind Pane.session

/-- Whether there is a pane with the given number that has no session. -/
def isUnbound (reg : Registry) (index : Nat) : Bool :=
  match reg.get? index with
  | some pane => pane.session.isNone
  | none => false

/-- **Binding by number.** Nothing happens if there is no such pane or if it is bound. -/
def bind (reg : Registry) (index : Nat) (id : SessionId) : Registry :=
  ⟨reg.panes.modify index (·.bind id)⟩

@[simp] theorem size_allocate (reg : Registry) (command : String) :
    (reg.allocate command).size = reg.size + 1 := by
  simp [size, allocate]

theorem get?_bind (reg : Registry) (index i : Nat) (id : SessionId) :
    (reg.bind index id).get? i =
      if index = i then (reg.get? i).map (·.bind id) else reg.get? i := by
  simp only [get?, bind, List.getElem?_modify]
  split <;> simp

end Registry

end PaneLayout
