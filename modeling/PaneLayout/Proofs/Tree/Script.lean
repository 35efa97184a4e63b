import PaneLayout.Instruction

set_option autoImplicit false

/-!
# The script of a tree

Compiling a tree can only fail at a group without children. For the trees without one, this file
gives the compiled instructions as a total function, which the rest of the theory works with.

## Main definitions

* `PaneLayout.Tree.Filled` — no group of the tree is empty.
* `PaneLayout.Tree.home` — the leftmost pane of a filled tree.
* `PaneLayout.Tree.script` — the instructions of a filled tree, without any error to pass on.

## Main results

* `PaneLayout.Tree.induct` — induction on a tree with a hypothesis for every child.
* `PaneLayout.Tree.compileAt_eq_script` — a filled tree compiles to its script, whatever the mode,
  the level and the place of the tree.
-/

namespace PaneLayout

namespace Tree

/-- **Induction on trees**: a property of panes that a group inherits from its children holds of
every tree. -/
@[elab_as_elim]
theorem induct {P : Tree → Prop} (pane : ∀ i, P (.pane i))
    (group : ∀ children, (∀ c ∈ children, P c) → P (.group children)) : ∀ t, P t
  | .pane i => pane i
  | .group children => group children fun c _ => induct pane group c

/-! ### Filled trees -/

mutual

/-- **Filled trees.** No group of the tree is without children. -/
def Filled : Tree → Prop
  | .pane _ => True
  | .group children => children ≠ [] ∧ AllFilled children

/-- All of some trees are filled. -/
def AllFilled : List Tree → Prop
  | [] => True
  | t :: ts => t.Filled ∧ AllFilled ts

end

/-- All of some trees are filled iff each of them is. -/
theorem allFilled_iff (ts : List Tree) : AllFilled ts ↔ ∀ t ∈ ts, t.Filled := by
  induction ts with
  | nil => simp [AllFilled]
  | cons t ts ih => simp [AllFilled, ih]

/-- A lone pane is filled. -/
@[simp] theorem filled_pane (i : Nat) : (Tree.pane i).Filled := by
  simp [Filled]

/-- A group is filled iff it has children and all of them are filled. -/
@[simp] theorem filled_group (children : List Tree) :
    (Tree.group children).Filled ↔ children ≠ [] ∧ ∀ c ∈ children, c.Filled := by
  simp [Filled, allFilled_iff]

/-! ### Panes and representatives -/

/-- The panes of some trees, tree by tree. -/
theorem panesOf_eq_flatMap (ts : List Tree) : panesOf ts = ts.flatMap panes := by
  induction ts with
  | nil => rfl
  | cons t ts ih => simp [panesOf, ih]

/-- The panes of a group are those of its children. -/
@[simp] theorem panes_group (children : List Tree) :
    (Tree.group children).panes = children.flatMap panes := by
  rw [panes, panesOf_eq_flatMap]

/-- The only pane of a lone pane. -/
@[simp] theorem panes_pane (i : Nat) : (Tree.pane i).panes = [i] := by
  rw [panes]

/-- The leftmost pane of a tree; the number means nothing for a tree without a representative. -/
def home (t : Tree) : Nat := t.representative?.getD 0

/-- A lone pane is its own home. -/
@[simp] theorem home_pane (i : Nat) : (Tree.pane i).home = i := by
  simp [home, representative?]

/-- The home of a group is that of its first child. -/
@[simp] theorem home_group_cons (t : Tree) (ts : List Tree) :
    (Tree.group (t :: ts)).home = t.home := by
  simp [home, representative?, firstRepresentative?]

/-- A filled tree has a representative, its home. -/
theorem representative?_eq_home {t : Tree} (ht : t.Filled) : t.representative? = some t.home := by
  induction t using induct with
  | pane i => simp [representative?]
  | group children ih =>
    obtain ⟨hne, hall⟩ := (filled_group children).1 ht
    cases children with
    | nil => exact absurd rfl hne
    | cons c cs =>
      have hc := ih c (by simp) (hall c (by simp))
      simpa [representative?, firstRepresentative?] using hc

/-- The first pane of a filled tree, in reading order, is its home. -/
theorem head?_panes {t : Tree} (ht : t.Filled) : t.panes.head? = some t.home := by
  induction t using induct with
  | pane i => simp
  | group children ih =>
    obtain ⟨hne, hall⟩ := (filled_group children).1 ht
    cases children with
    | nil => exact absurd rfl hne
    | cons c cs =>
      have hc := ih c (by simp) (hall c (by simp))
      simp [hc]

/-- The home of a filled tree is one of its panes. -/
theorem home_mem_panes {t : Tree} (ht : t.Filled) : t.home ∈ t.panes :=
  List.mem_of_head? (head?_panes ht)

/-! ### Scripts -/

/-- What is played for the siblings of the first child: each is split off and gets its command. -/
def arrivals (mode : Mode) (ts : List Tree) : List Instruction :=
  ts.flatMap fun t => [.split mode t.home, .cmd t.home]

/-- What is played for the children of a group, before any child group is entered. -/
def opening (mode : Mode) (isRoot : Bool) : List Tree → List Instruction
  | [] => []
  | t :: ts => .jump t.home :: ((if isRoot then [.cmd t.home] else []) ++ arrivals mode ts)

mutual

/-- **Scripts.** The instructions that build a filled tree out of its home. -/
def script (mode : Mode) (isRoot : Bool) : Tree → List Instruction
  | .pane i => [.jump i]
  | .group children =>
    opening mode isRoot children ++ scripts mode.next children ++ [.jump (group children).home]

/-- The scripts of the groups among some trees. -/
def scripts (mode : Mode) : List Tree → List Instruction
  | [] => []
  | t :: ts => (if t.isGroup then t.script mode false else []) ++ scripts mode ts

end

/-- The representative of a filled tree can be anchored at. -/
theorem anchor_eq_home {t : Tree} (ht : t.Filled) (path : Path) : anchor path t = .ok t.home := by
  simp [anchor, representative?_eq_home ht]

/-- One step per child: the opening, or only arrivals when the first child lies behind. -/
theorem siblings_eq {mode : Mode} {isRoot : Bool} {path : Path} {ts : List Tree} (index : Nat)
    (hts : ∀ t ∈ ts, t.Filled) :
    siblings mode isRoot path index ts =
      .ok (if index = 0 then opening mode isRoot ts else arrivals mode ts) := by
  induction ts generalizing index with
  | nil => by_cases h : index = 0 <;> simp [siblings, opening, arrivals, h]
  | cons t ts ih =>
    have hhead := anchor_eq_home (hts t (by simp)) (path ++ [index])
    have htail := ih (index + 1) fun u hu => hts u (by simp [hu])
    rw [siblings, hhead, htail]
    rcases Nat.eq_zero_or_pos index with rfl | hpos
    · cases isRoot <;> rfl
    · have hne : index ≠ 0 := by omega
      simp [hne, hpos, arrivals, bind, Except.bind, pure, Except.pure]

/-- The groups among filled children compile to their scripts, if each child does. -/
theorem compileGroups_eq {mode : Mode} {path : Path} {ts : List Tree} (index : Nat)
    (hts : ∀ t ∈ ts, ∀ path, compileAt mode false path t = .ok (t.script mode false)) :
    compileGroups mode path index ts = .ok (scripts mode ts) := by
  induction ts generalizing index with
  | nil => rfl
  | cons t ts ih =>
    have hhead := hts t (by simp) (path ++ [index])
    have htail := ih (index + 1) fun u hu => hts u (by simp [hu])
    rw [compileGroups, hhead, htail, scripts]
    cases t.isGroup <;> rfl

/-- **A filled tree compiles to its script.**

**Proof sketch.** Induction on the tree. A group is anchored at its home, its children give the
opening, and the child groups give their scripts by the induction hypotheses. -/
theorem compileAt_eq_script {t : Tree} (ht : t.Filled) (mode : Mode) (isRoot : Bool) (path : Path) :
    compileAt mode isRoot path t = .ok (t.script mode isRoot) := by
  induction t using induct generalizing mode isRoot path with
  | pane i => rw [compileAt, script]
  | group children ih =>
    have hall := ((filled_group children).1 ht).2
    have hgroups : compileGroups mode.next path 0 children = .ok (scripts mode.next children) :=
      compileGroups_eq 0 fun t hmem path => ih t hmem (hall t hmem) mode.next false path
    rw [compileAt, anchor_eq_home ht, siblings_eq 0 hall, hgroups, script]
    rfl

end Tree

end PaneLayout
