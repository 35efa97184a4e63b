import PaneLayout.Plan
import PaneLayout.Proofs.Arrangement

set_option autoImplicit false

/-!
# The numbering of panes

Converting a layout numbers its commands in reading order and adds one pane for each of them to the
registry. A plan that could be built therefore plays on the arrangement of its tree, starting from
pane `0`.

## Main definitions

* `PaneLayout.Node.commands` — the commands of a layout in reading order.

## Main results

* `PaneLayout.Node.convert_eq` — what a conversion that succeeds gives.
* `PaneLayout.Plan.exists_conversion` — a plan that could be built comes from such a conversion.
* `PaneLayout.Plan.exists_tree` — a plan that could be built is the script of a filled tree whose
  panes are numbered from `0` on, and none of its panes has a session.
* `PaneLayout.Plan.playAll?_queue` — the queue of such a plan never gets stuck.
-/

namespace PaneLayout

namespace Node

/-- **Induction on layouts**: a property of commands and of invalid nodes that a group inherits from
its children holds of every layout. -/
@[elab_as_elim]
theorem induct {P : Node → Prop} (command : ∀ text, P (.command text))
    (invalid : ∀ value, P (.invalid value))
    (group : ∀ children, (∀ n ∈ children, P n) → P (.group children)) : ∀ n, P n
  | .command text => command text
  | .invalid value => invalid value
  | .group children => group children fun n _ => induct command invalid group n

mutual

/-- The commands of a layout in reading order. -/
def commands : Node → List String
  | .command text => [text]
  | .group children => commandsOf children
  | .invalid _ => []

/-- The commands of some layouts in reading order. -/
def commandsOf : List Node → List String
  | [] => []
  | n :: ns => n.commands ++ commandsOf ns

end

end Node

namespace Registry

/-- Adding panes one after the other makes the registry grow by their number. -/
@[simp] theorem size_foldl_allocate (texts : List String) (reg : Registry) :
    (texts.foldl allocate reg).size = reg.size + texts.length := by
  induction texts generalizing reg with
  | nil => rfl
  | cons text texts ih =>
    rw [List.foldl_cons, ih, size_allocate, List.length_cons]
    omega

/-- A pane that has just been added has no session. -/
theorem session?_allocate {reg : Registry} {text : String} (h : ∀ i, reg.session? i = none)
    (i : Nat) : (reg.allocate text).session? i = none := by
  have hi := h i
  simp only [session?, get?, allocate, List.getElem?_append, List.getElem?_singleton] at hi ⊢
  split
  · exact hi
  · split <;> rfl

/-- Adding panes binds none. -/
theorem session?_foldl_allocate {texts : List String} {reg : Registry}
    (h : ∀ i, reg.session? i = none) (i : Nat) :
    (texts.foldl allocate reg).session? i = none := by
  induction texts generalizing reg with
  | nil => exact h i
  | cons text texts ih => exact ih fun j => session?_allocate h j

end Registry

namespace Node

section Convert

variable {path : Path} {n : Node} {ns : List Node} {index : Nat} {reg reg' : Registry} {t : Tree}
  {ts : List Tree}

/-- A group that could be converted has children, and has become the group of their trees. -/
theorem exists_of_convert_group (h : (group ns).convert path reg = .ok (t, reg')) :
    ns ≠ [] ∧ ∃ ts, t = .group ts ∧ convertChildren path 0 ns reg = .ok (ts, reg') := by
  rw [convert] at h
  split at h
  · simp at h
  · rename_i hne
    cases hrest : convertChildren path 0 ns reg with
    | error fault => simp [hrest, bind, Except.bind] at h
    | ok others =>
      obtain ⟨ts, last⟩ := others
      simp only [hrest, bind, Except.bind, pure, Except.pure, Except.ok.injEq, Prod.mk.injEq] at h
      obtain ⟨rfl, rfl⟩ := h
      exact ⟨fun hnil => hne (List.isEmpty_iff.2 hnil), ts, rfl, rfl⟩

/-- A row that could be converted has become the tree of its first node and those of the others. -/
theorem exists_of_convertChildren_cons
    (h : convertChildren path index (n :: ns) reg = .ok (ts, reg')) :
    ∃ u us mid, ts = u :: us ∧ n.convert (path ++ [index]) reg = .ok (u, mid) ∧
      convertChildren path (index + 1) ns mid = .ok (us, reg') := by
  rw [convertChildren] at h
  cases hn : n.convert (path ++ [index]) reg with
  | error fault => simp [hn, bind, Except.bind] at h
  | ok first =>
    obtain ⟨u, mid⟩ := first
    cases hrest : convertChildren path (index + 1) ns mid with
    | error fault => simp [hn, hrest, bind, Except.bind] at h
    | ok others =>
      obtain ⟨us, last⟩ := others
      simp only [hn, hrest, bind, Except.bind, pure, Except.pure, Except.ok.injEq,
        Prod.mk.injEq] at h
      obtain ⟨rfl, rfl⟩ := h
      exact ⟨u, us, mid, rfl, rfl, hrest⟩

/-- A node that could be converted has become a group exactly if it was one. -/
theorem isGroup_of_convert (h : n.convert path reg = .ok (t, reg')) : t.isGroup = n.isGroup := by
  cases n with
  | command text =>
    simp only [convert, Except.ok.injEq, Prod.mk.injEq] at h
    rw [← h.1]
    rfl
  | invalid value => simp [convert] at h
  | group children =>
    obtain ⟨-, ts, rfl, -⟩ := exists_of_convert_group h
    rfl

/-- What converting a row of layouts gives, if converting each of them does what
`PaneLayout.Node.convert_eq` says. -/
theorem convertChildren_eq
    (hns : ∀ n ∈ ns, ∀ {path reg t reg'}, n.convert path reg = .ok (t, reg') →
      t.Filled ∧ reg' = n.commands.foldl Registry.allocate reg ∧
        t.panes = List.range' reg.size n.commands.length)
    (h : convertChildren path index ns reg = .ok (ts, reg')) :
    ts.length = ns.length ∧ (∀ t ∈ ts, t.Filled) ∧
      reg' = (commandsOf ns).foldl Registry.allocate reg ∧
        ts.flatMap Tree.panes = List.range' reg.size (commandsOf ns).length := by
  induction ns generalizing index reg ts with
  | nil =>
    simp only [convertChildren, Except.ok.injEq, Prod.mk.injEq] at h
    obtain ⟨rfl, rfl⟩ := h
    simp [commandsOf]
  | cons n ns ih =>
    obtain ⟨t, us, mid, rfl, hn, hrest⟩ := exists_of_convertChildren_cons h
    obtain ⟨hfilled, hmid, hpanes⟩ := hns n (by simp) hn
    obtain ⟨hlen, hall, hlast, hrange⟩ := ih (fun m hm => hns m (by simp [hm])) hrest
    refine ⟨by simp [hlen], ?_, ?_, ?_⟩
    · intro u hu
      rcases List.mem_cons.1 hu with rfl | hu
      · exact hfilled
      · exact hall u hu
    · rw [hlast, hmid, commandsOf, List.foldl_append]
    · rw [List.flatMap_cons, hpanes, hrange, hmid, Registry.size_foldl_allocate, commandsOf,
        List.length_append, List.range'_append_1]

/-- **Converting a layout** gives a filled tree. Its panes carry on the numbers of the registry, and
the registry gets one pane for each command in reading order.

**Proof sketch.** Induction on the layout: a command allocates the next pane, a group is refused if
it is empty and otherwise converts its children in a row, and an invalid node is refused. -/
theorem convert_eq (h : n.convert path reg = .ok (t, reg')) :
    t.Filled ∧ reg' = n.commands.foldl Registry.allocate reg ∧
      t.panes = List.range' reg.size n.commands.length := by
  induction n using induct generalizing path reg t reg' with
  | command text =>
    simp only [convert, Except.ok.injEq, Prod.mk.injEq] at h
    obtain ⟨rfl, rfl⟩ := h
    simp [commands]
  | invalid value => simp [convert] at h
  | group children ih =>
    obtain ⟨hne, ts, rfl, hrest⟩ := exists_of_convert_group h
    obtain ⟨hlen, hall, hlast, hrange⟩ := convertChildren_eq (fun m hm => ih m hm) hrest
    have hts : ts ≠ [] := by
      rintro rfl
      exact hne (List.length_eq_zero_iff.1 hlen.symm)
    exact ⟨(Tree.filled_group ts).2 ⟨hts, hall⟩, hlast, by rw [Tree.panes_group, hrange, commands]⟩

end Convert

end Node

namespace Plan

/-- A plan that could be built has the panes and the script of the tree that its layout has been
converted to. -/
theorem exists_conversion {config : LayoutConfig} {defaultEntry : String} {plan : Plan}
    (h : build config defaultEntry = .ok plan) :
    ∃ t, config.layout.convert [] .empty = .ok (t, plan.panes) ∧
      plan.queue = t.script plan.entry true := by
  rw [build] at h
  cases hentry : config.entryMode defaultEntry with
  | error fault => simp [hentry, bind, Except.bind] at h
  | ok entry =>
    cases hconvert : config.layout.convert [] .empty with
    | error fault => simp [hentry, hconvert, bind, Except.bind] at h
    | ok converted =>
      obtain ⟨t, panes⟩ := converted
      have hcompile : t.compile entry true = .ok (t.script entry true) :=
        Tree.compileAt_eq_script (Node.convert_eq hconvert).1 entry true []
      simp only [hentry, hconvert, hcompile, bind, Except.bind, pure, Except.pure,
        Except.ok.injEq] at h
      subst h
      exact ⟨t, rfl, rfl⟩

/-- **Where plans come from.** A plan that could be built is the script of a filled tree, to which
its layout has been converted. The panes of the tree are the numbers below the size of the registry,
in order, the first of them is the home of the tree, and no pane has a session. -/
theorem exists_tree {config : LayoutConfig} {defaultEntry : String} {plan : Plan}
    (h : build config defaultEntry = .ok plan) :
    ∃ t : Tree, t.Filled ∧ t.home = 0 ∧ t.panes = List.range plan.panes.size ∧
      plan.queue = t.script plan.entry true ∧ (∀ i, plan.panes.session? i = none) ∧
      config.layout.convert [] .empty = .ok (t, plan.panes) := by
  obtain ⟨t, hconvert, hqueue⟩ := exists_conversion h
  obtain ⟨hfilled, hreg, hrange⟩ := Node.convert_eq hconvert
  have hsize : plan.panes.size = config.layout.commands.length := by
    rw [hreg, Registry.size_foldl_allocate]
    exact Nat.zero_add _
  have hpanes : t.panes = List.range plan.panes.size := by
    rw [hrange, hsize, List.range_eq_range']
    rfl
  refine ⟨t, hfilled, ?_, hpanes, hqueue, ?_, hconvert⟩
  · have hhead := Tree.head?_panes hfilled
    rw [hpanes, List.head?_range] at hhead
    split at hhead <;> simp_all
  · rw [hreg]
    exact Registry.session?_foldl_allocate fun i => rfl

/-- **Plans play through.** The queue of a plan that could be built, played from pane `0` alone,
never gets stuck, and every pane of the arrangement it leaves is in the registry. -/
theorem playAll?_queue {config : LayoutConfig} {defaultEntry : String} {plan : Plan}
    (h : build config defaultEntry = .ok plan) :
    ∃ a : Arrangement, (⟨.leaf 0, 0⟩ : Stage).playAll? plan.queue = some ⟨a, 0⟩ ∧
      ∀ p ∈ a.panes, p < plan.panes.size := by
  obtain ⟨t, hfilled, hhome, hpanes, hqueue, -⟩ := exists_tree h
  have hplay := Stage.playAll?_script hfilled (hpanes ▸ List.nodup_range) plan.entry true 0
  rw [hhome, ← hqueue] at hplay
  refine ⟨_, hplay, fun p hp => ?_⟩
  rw [Tree.panes_arrangement hfilled, hpanes] at hp
  exact List.mem_range.1 hp

end Plan

end PaneLayout
