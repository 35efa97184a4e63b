import Mathlib.Data.List.Nodup
import PaneLayout.Proofs.Diagnosis

set_option autoImplicit false

/-!
# Conversion loses nothing

A tree says by numbers what the layout says by commands, and the registry keeps which number stands
for which command. So a layout can be read back from its tree, and panes that are added later do not
change what is read. Several layouts can share a registry: each of them gets the numbers that follow
those of the layout before.

## Main definitions

* `PaneLayout.Registry.extend` — a registry with one more pane for each of some commands.
* `PaneLayout.Tree.resolve?` — the layout that a tree stands for.
* `PaneLayout.Node.convertAll` — layouts converted in turn into one registry.

## Main results

* `PaneLayout.Node.exists_renumbering`, `PaneLayout.Node.exists_renumberings` — what one faultless
  layout is converted to, and what several of them are.
* `PaneLayout.Node.conversion_renumbers` — both of them for layouts that are sound everywhere.
-/

namespace PaneLayout

/-! ### Registries that grow -/

namespace Registry

/-- **Extension.** The panes of the registry, and behind them one pane without a session for each of
the commands, numbered on from those that are there. -/
def extend (reg : Registry) (texts : List String) : Registry :=
  ⟨reg.panes ++ texts.mapIdx fun i text => ⟨text, reg.size + i, none⟩⟩

section Extend

variable (reg : Registry) (texts others : List String) {i : Nat}

@[simp] theorem extend_nil : reg.extend [] = reg := by
  simp [extend]

@[simp] theorem size_extend : (reg.extend texts).size = reg.size + texts.length := by
  simp [size, extend]

/-- One more command is one more pane. -/
theorem extend_singleton (text : String) : reg.extend [text] = reg.allocate text := rfl

/-- Extending twice is extending once by all commands. -/
theorem extend_append : reg.extend (texts ++ others) = (reg.extend texts).extend others := by
  simp [extend, List.mapIdx_append, size, Nat.add_assoc, Nat.add_comm]

/-- The panes that are there stay as they are. -/
theorem get?_extend_of_lt (h : i < reg.size) : (reg.extend texts).get? i = reg.get? i :=
  List.getElem?_append_left h

/-- The panes behind them belong to the commands in turn. -/
theorem get?_extend_add (i : Nat) : (reg.extend texts).get? (reg.size + i) =
    texts[i]?.map fun text => ⟨text, reg.size + i, none⟩ := by
  simp [get?, extend, size, List.getElem?_append_right]

end Extend

end Registry

/-! ### Reading a tree back -/

namespace Tree

mutual

/-- **Reading a tree back.** The layout in which every number of the tree is replaced by the command
of the pane with that number; none if the registry has no such pane. -/
def resolve? (reg : Registry) : Tree → Option Node
  | .pane i => (reg.get? i).map fun pane => .command pane.command
  | .group children => (resolveAll? reg children).map .group

/-- The layouts that some trees stand for. -/
def resolveAll? (reg : Registry) : List Tree → Option (List Node)
  | [] => some []
  | t :: ts => do
    let n ← t.resolve? reg
    let ns ← resolveAll? reg ts
    return n :: ns

end

section Resolve

variable {reg : Registry} {t : Tree} {ts : List Tree} {n : Node} {ns : List Node}

/-- A row stands for the layout of its first tree and those of the others. -/
theorem resolveAll?_cons_eq_some_iff : resolveAll? reg (t :: ts) = some ns ↔
    ∃ n others, t.resolve? reg = some n ∧ resolveAll? reg ts = some others ∧ ns = n :: others := by
  rw [resolveAll?]
  cases t.resolve? reg <;> cases resolveAll? reg ts <;> simp [eq_comm]

/-- **Later panes do not matter** for what a tree stands for.

**Proof sketch.** Induction on the tree: the pane at a leaf is there already, and stays. -/
theorem resolve?_extend (h : t.resolve? reg = some n) (texts : List String) :
    t.resolve? (reg.extend texts) = some n := by
  induction t using induct generalizing n with
  | pane i =>
    rw [resolve?] at h ⊢
    have hi : i < reg.size := by
      by_contra hi
      simp [Registry.get?, List.getElem?_eq_none (Nat.le_of_not_lt hi)] at h
    rwa [reg.get?_extend_of_lt texts hi]
  | group children ih =>
    rw [resolve?] at h ⊢
    obtain ⟨ns, hns, rfl⟩ := Option.map_eq_some_iff.1 h
    suffices hrow : resolveAll? (reg.extend texts) children = some ns by rw [hrow]; rfl
    clear h
    induction children generalizing ns with
    | nil => exact hns
    | cons c cs ihrow =>
      obtain ⟨m, others, hc, hcs, rfl⟩ := resolveAll?_cons_eq_some_iff.1 hns
      exact resolveAll?_cons_eq_some_iff.2 ⟨m, others, ih c List.mem_cons_self hc,
        ihrow (fun d hd => ih d (List.mem_cons_of_mem c hd)) others hcs, rfl⟩

end Resolve

end Tree

/-! ### Conversion -/

namespace Node

section Convert

variable {path : Path} {n : Node} {ns : List Node} {index : Nat} {reg reg' : Registry} {t : Tree}
  {ts : List Tree}

/-- The number of commands of some layouts, if it is right for each of them. -/
theorem length_commandsOf (h : ∀ n ∈ ns, n.commands.length = n.commandCount) :
    (commandsOf ns).length = commandCounts ns := by
  induction ns with
  | nil => rfl
  | cons n ns ih =>
    rw [commandsOf, commandCounts, List.length_append, h n List.mem_cons_self,
      ih fun m hm => h m (List.mem_cons_of_mem n hm)]

/-- There are as many commands as are counted. -/
theorem length_commands (n : Node) : n.commands.length = n.commandCount := by
  induction n using induct with
  | command text => rfl
  | invalid value => rfl
  | group children ih => exact length_commandsOf ih

/-- Converting a layout extends the registry by its commands. -/
theorem eq_extend_of_convert (h : n.convert path reg = .ok (t, reg')) :
    reg' = reg.extend n.commands := by
  have hfold : ∀ texts (reg : Registry), texts.foldl Registry.allocate reg = reg.extend texts := by
    intro texts
    induction texts with
    | nil => exact fun reg => reg.extend_nil.symm
    | cons text texts ih =>
      intro reg
      rw [List.foldl_cons, ih, ← Registry.extend_singleton, ← Registry.extend_append,
        List.singleton_append]
  rw [(convert_eq h).2.1, hfold]

/-- Converting a row of layouts extends the registry by the commands of all of them. -/
theorem eq_extend_of_convertChildren (h : convertChildren path index ns reg = .ok (ts, reg')) :
    reg' = reg.extend (commandsOf ns) := by
  induction ns generalizing index reg ts with
  | nil =>
    simp only [convertChildren, Except.ok.injEq, Prod.mk.injEq] at h
    rw [commandsOf, Registry.extend_nil, h.2]
  | cons n ns ih =>
    obtain ⟨u, us, mid, -, hn, hrest⟩ := exists_of_convertChildren_cons h
    rw [ih hrest, eq_extend_of_convert hn, commandsOf, Registry.extend_append]

/-- **A layout is read back from its tree.**

**Proof sketch.** Induction on the layout. The child of a group is read back from the registry that
its own conversion leaves, so also from the one that its later siblings leave. -/
theorem resolve?_of_convert (h : n.convert path reg = .ok (t, reg')) :
    t.resolve? reg' = some n := by
  induction n using induct generalizing path reg t reg' with
  | command text =>
    simp only [convert, Except.ok.injEq, Prod.mk.injEq] at h
    obtain ⟨rfl, rfl⟩ := h
    simp [Tree.resolve?, Registry.get?, Registry.allocate, Registry.size]
  | invalid value => simp [convert] at h
  | group children ih =>
    obtain ⟨-, ts, rfl, hrow⟩ := exists_of_convert_group h
    suffices hall : Tree.resolveAll? reg' ts = some children by rw [Tree.resolve?, hall]; rfl
    clear h
    generalize 0 = index at hrow
    induction children generalizing index reg ts with
    | nil =>
      simp only [convertChildren, Except.ok.injEq, Prod.mk.injEq] at hrow
      rw [← hrow.1, Tree.resolveAll?]
    | cons n ns ihrow =>
      obtain ⟨u, us, mid, rfl, hn, hrest⟩ := exists_of_convertChildren_cons hrow
      have hfirst := Tree.resolve?_extend (ih n List.mem_cons_self hn) (commandsOf ns)
      rw [← eq_extend_of_convertChildren hrest] at hfirst
      exact Tree.resolveAll?_cons_eq_some_iff.2 ⟨n, ns, hfirst,
        ihrow (fun m hm => ih m (List.mem_cons_of_mem n hm)) us _ hrest, rfl⟩

end Convert

/-- **What a layout without faults is converted to**: a tree with the next numbers in order, from
which the layout is read back, and the registry extended by the commands. -/
theorem exists_renumbering {n : Node} (h : ∀ path, n.SoundAt path) (place : Path)
    (reg : Registry) :
    ∃ t, n.convert place reg = .ok (t, reg.extend n.commands) ∧
      t.panes = List.range' reg.size n.commandCount ∧
      t.resolve? (reg.extend n.commands) = some n := by
  rcases diagnosed n place reg with ⟨⟨t, reg'⟩, hok, -⟩ | ⟨path, fault, -, hfirst⟩
  · obtain rfl := eq_extend_of_convert hok
    refine ⟨t, hok, ?_, resolve?_of_convert hok⟩
    rw [(convert_eq hok).2.2, length_commands]
  · have hnone : n.faultAt? place path = none := faultAt?_eq_none_iff.2 (h path)
    rw [hfirst.here] at hnone
    contradiction

/-- Only layouts without faults are converted. -/
theorem soundAt_of_convert {n : Node} (place : Path) (reg : Registry) {done : Tree × Registry}
    (h : n.convert place reg = .ok done) (path : Path) : n.SoundAt path := by
  rcases diagnosed n place reg with ⟨-, -, hfaultless⟩ | ⟨_, fault, herror, -⟩
  · exact faultAt?_eq_none_iff.1 (hfaultless path)
  · rw [herror] at h
    contradiction

/-! ### Layouts in turn -/

/-- **Layouts in turn.** Each layout is converted on its own, into the registry that the one before
has left. -/
def convertAll : List Node → Registry → Except LayoutFault (List Tree × Registry)
  | [], reg => .ok ([], reg)
  | n :: ns, reg => do
    let (t, reg) ← n.convert [] reg
    let (ts, reg) ← convertAll ns reg
    return (t :: ts, reg)

/-- **What layouts without faults are converted to in turn**: each of them gets the numbers that
follow those of the ones before, and is read back from the registry that is left in the end. -/
theorem exists_renumberings {ns : List Node} (h : ∀ n ∈ ns, ∀ path, n.SoundAt path)
    (reg : Registry) :
    ∃ ts, convertAll ns reg = .ok (ts, reg.extend (commandsOf ns)) ∧ ts.length = ns.length ∧
      ts.flatMap Tree.panes = List.range' reg.size (commandCounts ns) ∧
      ∀ (k : Nat) (n : Node), ns[k]? = some n → ∃ t, ts[k]? = some t ∧
        t.panes = List.range' (reg.size + commandCounts (ns.take k)) n.commandCount ∧
        t.resolve? (reg.extend (commandsOf ns)) = some n := by
  induction ns generalizing reg with
  | nil => exact ⟨[], by simp [convertAll, commandsOf], rfl, by simp [commandCounts], by simp⟩
  | cons n ns ih =>
    obtain ⟨t, hn, hpanes, hback⟩ := exists_renumbering (h n List.mem_cons_self) [] reg
    obtain ⟨ts, hns, hlen, hrange, hall⟩ :=
      ih (fun m hm => h m (List.mem_cons_of_mem n hm)) (reg.extend n.commands)
    have hsize : (reg.extend n.commands).size = reg.size + n.commandCount := by
      rw [Registry.size_extend, length_commands]
    rw [← Registry.extend_append, ← commandsOf] at hns hall
    refine ⟨t :: ts, ?_, congrArg (· + 1) hlen, ?_, ?_⟩
    · simp only [convertAll, hn, hns, bind, Except.bind, pure, Except.pure]
    · rw [List.flatMap_cons, hpanes, hrange, hsize, commandCounts, List.range'_append_1]
    · rintro (- | k) m hm
      · obtain rfl : n = m := by simpa using hm
        refine ⟨t, rfl, hpanes, ?_⟩
        rw [commandsOf, Registry.extend_append]
        exact Tree.resolve?_extend hback (commandsOf ns)
      · obtain ⟨u, hu, hrangeu, hbacku⟩ := hall k m (by simpa using hm)
        refine ⟨u, by simpa using hu, ?_, hbacku⟩
        rw [hrangeu, hsize, List.take_succ_cons, commandCounts, Nat.add_assoc]

/-- Trees whose numbers are consecutive when read in turn have no number in common. -/
theorem pairwise_disjoint_of_flatMap {ts : List Tree} {first count : Nat}
    (h : ts.flatMap Tree.panes = List.range' first count) :
    ts.Pairwise fun t u => List.Disjoint t.panes u.panes := by
  have hnodup : (ts.flatMap Tree.panes).Nodup := h ▸ List.nodup_range'
  exact (List.nodup_flatMap.1 hnodup).2

/-- **Conversion loses nothing.** A layout without empty groups and invalid nodes is converted from
every registry. The panes that are there stay as they are; behind them stands one pane without a
session for each command in reading order, numbered on. The tree has these numbers in order, and
with the commands put back in for them it is the layout.

Layouts converted in turn into one registry get consecutive numbers, no two of them share one, and
in the end each of them is still read back from its tree.

**Proof sketch.** A faultless layout is converted (`Node.diagnosed`); what is left has been said for
conversions that succeed (`Node.convert_eq`) but for reading back, which goes by induction on the
layout and does not mind later panes (`Tree.resolve?_extend`). The second half is an induction on
the row of layouts. -/
theorem conversion_renumbers (reg : Registry) :
    (∀ n : Node, (∀ path, n.SoundAt path) → ∀ place, ∃ t reg',
      n.convert place reg = .ok (t, reg') ∧
      reg'.size = reg.size + n.commandCount ∧
      (∀ i < reg.size, reg'.get? i = reg.get? i) ∧
      n.commands.length = n.commandCount ∧
      (∀ (i : Nat) (text : String), n.commands[i]? = some text →
        reg'.get? (reg.size + i) = some ⟨text, reg.size + i, none⟩) ∧
      t.panes = List.range' reg.size n.commandCount ∧
      t.resolve? reg' = some n) ∧
    ∀ ns : List Node, (∀ n ∈ ns, ∀ path, n.SoundAt path) → ∃ ts reg',
      convertAll ns reg = .ok (ts, reg') ∧
      ts.length = ns.length ∧
      reg'.size = reg.size + commandCounts ns ∧
      (∀ i < reg.size, reg'.get? i = reg.get? i) ∧
      ts.flatMap Tree.panes = List.range' reg.size (commandCounts ns) ∧
      (ts.Pairwise fun t u => List.Disjoint t.panes u.panes) ∧
      ∀ (k : Nat) (n : Node), ns[k]? = some n → ∃ t, ts[k]? = some t ∧
        t.panes = List.range' (reg.size + commandCounts (ns.take k)) n.commandCount ∧
        t.resolve? reg' = some n := by
  constructor
  · intro n hsound place
    obtain ⟨t, hok, hpanes, hback⟩ := exists_renumbering hsound place reg
    refine ⟨t, _, hok, ?_, fun i hi => reg.get?_extend_of_lt n.commands hi, length_commands n, ?_,
      hpanes, hback⟩
    · rw [Registry.size_extend, length_commands]
    · intro i text htext
      rw [Registry.get?_extend_add, htext, Option.map_some]
  · intro ns hsound
    obtain ⟨ts, hok, hlen, hrange, hall⟩ := exists_renumberings hsound reg
    refine ⟨ts, _, hok, hlen, ?_, fun i hi => reg.get?_extend_of_lt (commandsOf ns) hi, hrange,
      pairwise_disjoint_of_flatMap hrange, hall⟩
    rw [Registry.size_extend, length_commandsOf fun n _ => length_commands n]

/-- Behind a pane that has a session, a nested layout gets the numbers from `1` to `3` and the next
layout gets `4`; both are read back in the end, and the session of the first pane is still there. -/
theorem conversion_renumbers_behind_bound_pane :
    let reg : Registry := ⟨[⟨"sh", 0, some ⟨"session-0"⟩⟩]⟩
    let nested : Node := .group [.command "vim", .group [.command "htop", .command "top"]]
    (∀ path, nested.SoundAt path) ∧
      (∃ t reg', nested.convert [7] reg = .ok (t, reg') ∧ t.panes = [1, 2, 3] ∧
        t.resolve? reg' = some nested) ∧
      ∃ ts reg', convertAll [nested, .command "ls"] reg = .ok (ts, reg') ∧
        ts.flatMap Tree.panes = [1, 2, 3, 4] ∧ reg'.session? 0 = some ⟨"session-0"⟩ ∧
        ∀ (k : Nat) (n : Node), [nested, .command "ls"][k]? = some n →
          ∃ t, ts[k]? = some t ∧ t.resolve? reg' = some n := by
  intro reg nested
  have hnested : ∀ path, nested.SoundAt path := soundAt_of_convert [] reg rfl
  have hls : ∀ path, (Node.command "ls").SoundAt path := soundAt_of_convert [] reg rfl
  refine ⟨hnested, ?_, ?_⟩
  · obtain ⟨t, reg', hok, -, -, -, -, hpanes, hback⟩ :=
      (conversion_renumbers reg).1 nested hnested [7]
    exact ⟨t, reg', hok, hpanes, hback⟩
  · obtain ⟨ts, reg', hok, -, -, hkept, hpanes, -, hall⟩ :=
      (conversion_renumbers reg).2 [nested, .command "ls"]
        (List.forall_mem_cons.2 ⟨hnested, List.forall_mem_singleton.2 hls⟩)
    refine ⟨ts, reg', hok, hpanes, ?_, fun k n hn => ?_⟩
    · rw [Registry.session?, hkept 0 Nat.zero_lt_one]
      rfl
    · obtain ⟨t, ht, -, hback⟩ := hall k n hn
      exact ⟨t, ht, hback⟩

end Node

end PaneLayout
