import Mathlib.Data.List.Perm.Basic
import PaneLayout.Proofs.Tree.Script

set_option autoImplicit false

/-!
# A census of scripts

Every pane of a layout is split off once and gets its command once, but not in one place of the
tree: the first child of a group has been split off and commanded further out, where the group was a
sibling, and only the outermost group commands its first child itself. This file counts what the
script of a tree has of each kind, and shows what stands next to what.

## Main definitions

* `PaneLayout.splitPanes`, `PaneLayout.cmdPanes`, `PaneLayout.jumpPanes` — the panes that a queue
  splits off, commands and jumps to.
* `PaneLayout.Tree.groupCount` — the number of groups of a tree.
* `PaneLayout.Paced` — queues of jumps and of splits, each with the command of its pane behind it.

## Main results

* `PaneLayout.Tree.splitPanes_script` — a script splits off every pane but the home.
* `PaneLayout.Tree.length_jumpPanes_script` — a group is jumped to and jumped back to.
* `PaneLayout.Tree.paced_or_root` — a script is paced, but for the command of the home on the
  outermost level.
* `PaneLayout.Tree.compile_census` — all of this for the compiled instructions.
-/

namespace PaneLayout

/-! ### The panes of a queue -/

namespace Instruction

/-- The pane that an instruction splits off. -/
def splitPane? : Instruction → Option Nat
  | .split _ p => some p
  | .jump _ => none
  | .cmd _ => none

/-- The pane whose command an instruction runs. -/
def cmdPane? : Instruction → Option Nat
  | .cmd p => some p
  | _ => none

/-- The pane that an instruction jumps to. -/
def jumpPane? : Instruction → Option Nat
  | .jump p => some p
  | _ => none

end Instruction

/-- **The panes that a queue splits off,** in order. -/
def splitPanes (queue : List Instruction) : List Nat := queue.filterMap Instruction.splitPane?

/-- **The panes that a queue commands,** in order. -/
def cmdPanes (queue : List Instruction) : List Nat := queue.filterMap Instruction.cmdPane?

/-- **The panes that a queue jumps to,** in order. -/
def jumpPanes (queue : List Instruction) : List Nat := queue.filterMap Instruction.jumpPane?

section Panes

variable (q₁ q₂ rest : List Instruction) (mode : Mode) (p : Nat)

@[simp] theorem splitPanes_nil : splitPanes [] = [] := rfl

@[simp] theorem cmdPanes_nil : cmdPanes [] = [] := rfl

@[simp] theorem jumpPanes_nil : jumpPanes [] = [] := rfl

@[simp] theorem splitPanes_append : splitPanes (q₁ ++ q₂) = splitPanes q₁ ++ splitPanes q₂ :=
  List.filterMap_append

@[simp] theorem cmdPanes_append : cmdPanes (q₁ ++ q₂) = cmdPanes q₁ ++ cmdPanes q₂ :=
  List.filterMap_append

@[simp] theorem jumpPanes_append : jumpPanes (q₁ ++ q₂) = jumpPanes q₁ ++ jumpPanes q₂ :=
  List.filterMap_append

@[simp] theorem splitPanes_split : splitPanes (.split mode p :: rest) = p :: splitPanes rest := rfl

@[simp] theorem splitPanes_cmd : splitPanes (.cmd p :: rest) = splitPanes rest := rfl

@[simp] theorem splitPanes_jump : splitPanes (.jump p :: rest) = splitPanes rest := rfl

@[simp] theorem cmdPanes_split : cmdPanes (.split mode p :: rest) = cmdPanes rest := rfl

@[simp] theorem cmdPanes_cmd : cmdPanes (.cmd p :: rest) = p :: cmdPanes rest := rfl

@[simp] theorem cmdPanes_jump : cmdPanes (.jump p :: rest) = cmdPanes rest := rfl

@[simp] theorem jumpPanes_split : jumpPanes (.split mode p :: rest) = jumpPanes rest := rfl

@[simp] theorem jumpPanes_cmd : jumpPanes (.cmd p :: rest) = jumpPanes rest := rfl

@[simp] theorem jumpPanes_jump : jumpPanes (.jump p :: rest) = p :: jumpPanes rest := rfl

/-- Every instruction is a split, a command or a jump. -/
theorem length_eq_panes (queue : List Instruction) : queue.length =
    (splitPanes queue).length + (cmdPanes queue).length + (jumpPanes queue).length := by
  induction queue with
  | nil => rfl
  | cons i rest ih => cases i <;> simp <;> omega

end Panes

/-! ### Paced queues -/

/-- **Paced queues**: jumps, and splits with the command of the same pane directly behind them. -/
inductive Paced : List Instruction → Prop where
  | nil : Paced []
  | jump {rest : List Instruction} (p : Nat) : Paced rest → Paced (.jump p :: rest)
  | split {rest : List Instruction} (mode : Mode) (p : Nat) :
    Paced rest → Paced (.split mode p :: .cmd p :: rest)

namespace Paced

variable {queue q₁ q₂ : List Instruction}

/-- Paced queues in a row are paced. -/
theorem append (h₁ : Paced q₁) (h₂ : Paced q₂) : Paced (q₁ ++ q₂) := by
  induction h₁ with
  | nil => exact h₂
  | jump p _ ih => exact .jump p ih
  | split mode p _ ih => exact .split mode p ih

/-- A paced queue commands what it splits off, in the same order. -/
theorem cmdPanes_eq (h : Paced queue) : cmdPanes queue = splitPanes queue := by
  induction h with
  | nil => rfl
  | jump p _ ih => exact ih
  | split mode p _ ih => exact congrArg (p :: ·) ih

/-- **Splits are followed by commands** in a paced queue. -/
theorem getElem?_succ (h : Paced queue) {k : Nat} {mode : Mode} {p : Nat}
    (hk : queue[k]? = some (.split mode p)) : queue[k + 1]? = some (.cmd p) := by
  induction h generalizing k with
  | nil => simp at hk
  | jump q _ ih =>
    cases k with
    | zero => simp at hk
    | succ k => simpa using ih (by simpa using hk)
  | split m q _ ih =>
    match k with
    | 0 =>
      obtain ⟨-, rfl⟩ : m = mode ∧ q = p := by simpa using hk
      rfl
    | 1 => simp at hk
    | k + 2 => simpa using ih (by simpa using hk)

/-- **Commands follow splits** in a paced queue. -/
theorem exists_split_of_cmd (h : Paced queue) {k p : Nat} (hk : queue[k]? = some (.cmd p)) :
    ∃ j mode, k = j + 1 ∧ queue[j]? = some (.split mode p) := by
  induction h generalizing k with
  | nil => simp at hk
  | jump q _ ih =>
    cases k with
    | zero => simp at hk
    | succ k =>
      obtain ⟨j, mode, rfl, hj⟩ := ih (by simpa using hk)
      exact ⟨j + 1, mode, rfl, by simpa using hj⟩
  | split m q _ ih =>
    match k with
    | 0 => simp at hk
    | 1 =>
      obtain rfl : q = p := by simpa using hk
      exact ⟨0, m, rfl, rfl⟩
    | k + 2 =>
      obtain ⟨j, mode, rfl, hj⟩ := ih (by simpa using hk)
      exact ⟨j + 2, mode, rfl, by simpa using hj⟩

end Paced

namespace Tree

variable {t c : Tree} {ts cs children : List Tree} {mode : Mode} {isRoot : Bool}

/-! ### The number of groups -/

mutual

/-- **The number of groups** of a tree, itself included. -/
def groupCount : Tree → Nat
  | .pane _ => 0
  | .group children => 1 + groupCounts children

/-- The number of groups of some trees. -/
def groupCounts : List Tree → Nat
  | [] => 0
  | t :: ts => t.groupCount + groupCounts ts

end

/-- A tree that is no group has none. -/
theorem groupCount_of_not_isGroup (h : t.isGroup = false) : t.groupCount = 0 := by
  cases t with
  | pane i => rw [groupCount]
  | group children => simp [isGroup] at h

/-- A tree that is no group has no pane but its home. -/
theorem tail_panes_of_not_isGroup (h : t.isGroup = false) : t.panes.tail = [] := by
  cases t with
  | pane i => simp
  | group children => simp [isGroup] at h

/-! ### Splits -/

/-- Every tree that arrives is split off at its home. -/
theorem splitPanes_arrivals (mode : Mode) (ts : List Tree) :
    splitPanes (arrivals mode ts) = ts.map home := by
  induction ts with
  | nil => rfl
  | cons t ts ih => simpa [arrivals] using ih

/-- The opening of a group splits off all children but the first. -/
theorem splitPanes_opening (mode : Mode) (isRoot : Bool) (c : Tree) (cs : List Tree) :
    splitPanes (opening mode isRoot (c :: cs)) = cs.map home := by
  cases isRoot <;> simp [opening, splitPanes_arrivals]

/-- The scripts of child groups split off what their trees have besides their homes, if each of
them does. -/
theorem splitPanes_scripts
    (h : ∀ t ∈ ts, (splitPanes (t.script mode false)).Perm t.panes.tail) :
    (splitPanes (scripts mode ts)).Perm (ts.flatMap fun t => t.panes.tail) := by
  induction ts with
  | nil => exact .nil
  | cons t ts ih =>
    rw [scripts, splitPanes_append, List.flatMap_cons]
    refine List.Perm.append ?_ (ih fun u hu => h u (List.mem_cons_of_mem t hu))
    cases hgroup : t.isGroup with
    | true => exact h t List.mem_cons_self
    | false =>
      rw [tail_panes_of_not_isGroup hgroup]
      exact .nil

/-- The panes of filled trees are their homes and what they have besides. -/
theorem homes_append_tails (h : ∀ t ∈ ts, t.Filled) :
    (ts.map home ++ ts.flatMap fun t => t.panes.tail).Perm (ts.flatMap panes) := by
  have hcons : ∀ t ∈ ts, [t.home] ++ t.panes.tail = t.panes := fun t ht =>
    List.cons_head?_tail (head?_panes (h t ht))
  rw [List.map_eq_flatMap, ← List.flatMap_congr hcons]
  exact List.flatMap_append_perm ts (fun t => [t.home]) fun t => t.panes.tail

open List in
/-- **A script splits off every pane but the home**, once each.

**Proof sketch.** Induction on the tree. The opening of a group splits off the homes of its children
but the first, the scripts of the child groups split off the rest of each child, and both together
are all panes but the first (`homes_append_tails`). -/
theorem splitPanes_script (ht : t.Filled) (mode : Mode) (isRoot : Bool) :
    (splitPanes (t.script mode isRoot)).Perm t.panes.tail := by
  induction t using induct generalizing mode isRoot with
  | pane i =>
    rw [script, panes_pane]
    exact .nil
  | group children ih =>
    obtain ⟨hne, hall⟩ := (filled_group children).1 ht
    obtain ⟨c, cs, rfl⟩ := List.exists_cons_of_ne_nil hne
    have hscripts : (splitPanes (scripts mode.next (c :: cs))).Perm
        (c.panes.tail ++ cs.flatMap fun t => t.panes.tail) :=
      splitPanes_scripts fun d hd => ih d hd (hall d hd) mode.next false
    have hhomes := homes_append_tails fun d hd => hall d (List.mem_cons_of_mem c hd)
    have htail : (group (c :: cs)).panes.tail = c.panes.tail ++ cs.flatMap panes := by
      have hfirst : c.panes ≠ [] := List.ne_nil_of_mem (home_mem_panes (hall c List.mem_cons_self))
      rw [panes_group, List.flatMap_cons, List.tail_append_of_ne_nil hfirst]
    rw [script, splitPanes_append, splitPanes_append, splitPanes_opening, splitPanes_jump,
      splitPanes_nil, List.append_nil, htail]
    calc
      cs.map home ++ splitPanes (scripts mode.next (c :: cs))
        ~ cs.map home ++ (c.panes.tail ++ cs.flatMap fun t => t.panes.tail) :=
          hscripts.append_left _
      _ ~ c.panes.tail ++ (cs.map home ++ cs.flatMap fun t => t.panes.tail) :=
          perm_append_comm_assoc _ _ _
      _ ~ c.panes.tail ++ cs.flatMap panes := hhomes.append_left _

/-! ### Jumps -/

/-- Arrivals jump nowhere. -/
theorem jumpPanes_arrivals (mode : Mode) (ts : List Tree) : jumpPanes (arrivals mode ts) = [] := by
  induction ts with
  | nil => rfl
  | cons t ts ih => simpa [arrivals] using ih

/-- The opening of a group jumps to its home. -/
theorem jumpPanes_opening (mode : Mode) (isRoot : Bool) (c : Tree) (cs : List Tree) :
    jumpPanes (opening mode isRoot (c :: cs)) = [c.home] := by
  cases isRoot <;> simp [opening, jumpPanes_arrivals]

/-- The scripts of child groups jump twice for every group, if each of them does. -/
theorem length_jumpPanes_scripts (h : ∀ t ∈ ts, t.isGroup = true →
      (jumpPanes (t.script mode false)).length = 2 * t.groupCount) :
    (jumpPanes (scripts mode ts)).length = 2 * groupCounts ts := by
  induction ts with
  | nil => rfl
  | cons t ts ih =>
    have hts := ih fun u hu => h u (List.mem_cons_of_mem t hu)
    rw [scripts, jumpPanes_append, List.length_append, hts, groupCounts]
    cases hgroup : t.isGroup with
    | true =>
      have ht := h t List.mem_cons_self hgroup
      rw [if_pos rfl]
      omega
    | false =>
      rw [groupCount_of_not_isGroup hgroup]
      simp

/-- **Every group is jumped to and jumped back to.** -/
theorem length_jumpPanes_script (ht : t.Filled) (hgroup : t.isGroup = true) (mode : Mode)
    (isRoot : Bool) : (jumpPanes (t.script mode isRoot)).length = 2 * t.groupCount := by
  induction t using induct generalizing mode isRoot with
  | pane i => simp [isGroup] at hgroup
  | group children ih =>
    obtain ⟨hne, hall⟩ := (filled_group children).1 ht
    obtain ⟨c, cs, rfl⟩ := List.exists_cons_of_ne_nil hne
    have hscripts := length_jumpPanes_scripts fun d hd hgroup =>
      ih d hd (hall d hd) hgroup mode.next false
    rw [script, jumpPanes_append, jumpPanes_append, jumpPanes_opening, List.length_append,
      List.length_append, hscripts, groupCount]
    simp
    omega

/-! ### What stands next to what -/

/-- Arrivals are paced. -/
theorem paced_arrivals (mode : Mode) (ts : List Tree) : Paced (arrivals mode ts) := by
  induction ts with
  | nil => exact .nil
  | cons t ts ih => exact .split mode t.home ih

/-- The scripts of child groups are paced, if each of them is. -/
theorem paced_scripts (h : ∀ t ∈ ts, Paced (t.script mode false)) : Paced (scripts mode ts) := by
  induction ts with
  | nil => exact .nil
  | cons t ts ih =>
    have hts := ih fun u hu => h u (List.mem_cons_of_mem t hu)
    rw [scripts]
    cases t.isGroup with
    | true => exact (h t List.mem_cons_self).append hts
    | false => exact hts

/-- **Scripts are paced** below the outermost level. -/
theorem paced_script (t : Tree) (mode : Mode) : Paced (t.script mode false) := by
  induction t using induct generalizing mode with
  | pane i =>
    rw [script]
    exact .jump i .nil
  | group children ih =>
    have hscripts : Paced (scripts mode.next children) :=
      paced_scripts fun t ht => ih t ht mode.next
    have hopening : Paced (opening mode false children) := by
      cases children with
      | nil => exact .nil
      | cons c cs => exact .jump c.home (paced_arrivals mode cs)
    rw [script]
    exact (hopening.append hscripts).append (.jump _ .nil)

/-- **The outermost script** is that of a group further in, with the command of the home behind its
first jump. -/
theorem exists_paced_of_root (c : Tree) (cs : List Tree) (mode : Mode) :
    ∃ body, Paced body ∧ (group (c :: cs)).script mode false = .jump c.home :: body ∧
      (group (c :: cs)).script mode true = .jump c.home :: .cmd c.home :: body := by
  have hscripts : Paced (scripts mode.next (c :: cs)) :=
    paced_scripts fun t _ => t.paced_script mode.next
  refine ⟨arrivals mode cs ++ scripts mode.next (c :: cs) ++ [.jump c.home],
    ((paced_arrivals mode cs).append hscripts).append (.jump _ .nil), ?_, ?_⟩
  · simp [script, opening]
  · simp [script, opening]

/-- **The commands of a script**: what is split off, and on the outermost level the home. -/
theorem cmdPanes_script (hgroup : t.isGroup = true) (ht : t.Filled) (mode : Mode) (isRoot : Bool) :
    (cmdPanes (t.script mode isRoot)).Perm (if isRoot then t.panes else t.panes.tail) := by
  have hsplits := splitPanes_script ht mode isRoot
  have hhead := head?_panes ht
  cases t with
  | pane i => simp [isGroup] at hgroup
  | group children =>
    obtain ⟨hne, -⟩ := (filled_group children).1 ht
    obtain ⟨c, cs, rfl⟩ := List.exists_cons_of_ne_nil hne
    obtain ⟨body, hpaced, hinner, houter⟩ := exists_paced_of_root c cs mode
    cases isRoot with
    | false =>
      rw [hinner, splitPanes_jump] at hsplits
      rw [hinner, cmdPanes_jump, hpaced.cmdPanes_eq]
      exact hsplits
    | true =>
      rw [houter, splitPanes_jump, splitPanes_cmd] at hsplits
      rw [houter, cmdPanes_jump, cmdPanes_cmd, hpaced.cmdPanes_eq, if_pos rfl,
        ← List.cons_head?_tail hhead, home_group_cons]
      exact hsplits.cons c.home

/-- A script is paced, or it is so behind the jump to its home and the command of the home. -/
theorem paced_or_root (t : Tree) (mode : Mode) (isRoot : Bool) :
    Paced (t.script mode isRoot) ∨ isRoot = true ∧
      ∃ p body, Paced body ∧ t.script mode isRoot = .jump p :: .cmd p :: body := by
  cases isRoot with
  | false => exact .inl (t.paced_script mode)
  | true =>
    cases t with
    | pane i => exact .inl ((pane i).paced_script mode)
    | group children =>
      cases children with
      | nil => exact .inl ((group []).paced_script mode)
      | cons c cs =>
        obtain ⟨body, hpaced, -, houter⟩ := exists_paced_of_root c cs mode
        exact .inr ⟨rfl, c.home, body, hpaced, houter⟩

/-- Every split of a script is followed by the command of its pane. -/
theorem cmd_behind_split {k p : Nat} {m : Mode}
    (hk : (t.script mode isRoot)[k]? = some (.split m p)) :
    (t.script mode isRoot)[k + 1]? = some (.cmd p) := by
  rcases t.paced_or_root mode isRoot with hpaced | ⟨-, q, body, hpaced, heq⟩
  · exact hpaced.getElem?_succ hk
  · rw [heq] at hk ⊢
    match k with
    | 0 => simp at hk
    | 1 => simp at hk
    | k + 2 => simpa using hpaced.getElem?_succ (by simpa using hk)

/-- Every command of a script follows the split of its pane, but for the one that follows the first
jump of the outermost level. -/
theorem split_before_cmd {k p : Nat} (hk : (t.script mode isRoot)[k]? = some (.cmd p)) :
    (∃ j m, k = j + 1 ∧ (t.script mode isRoot)[j]? = some (.split m p)) ∨
      isRoot = true ∧ k = 1 ∧ (t.script mode isRoot)[0]? = some (.jump p) := by
  rcases t.paced_or_root mode isRoot with hpaced | ⟨hroot, q, body, hpaced, heq⟩
  · exact .inl (hpaced.exists_split_of_cmd hk)
  · rw [heq] at hk ⊢
    match k with
    | 0 => simp at hk
    | 1 =>
      obtain rfl : q = p := by simpa using hk
      exact .inr ⟨hroot, rfl, rfl⟩
    | k + 2 =>
      obtain ⟨j, m, rfl, hj⟩ := hpaced.exists_split_of_cmd (by simpa using hk)
      exact .inl ⟨j + 2, m, rfl, by simpa using hj⟩

/-- The script of the outermost group jumps to its home and runs the command there. -/
theorem root_begins (ht : t.Filled) (hgroup : t.isGroup = true) (mode : Mode) :
    ∃ p, (t.script mode true)[0]? = some (.jump p) ∧ (t.script mode true)[1]? = some (.cmd p) := by
  cases t with
  | pane i => simp [isGroup] at hgroup
  | group children =>
    obtain ⟨c, cs, rfl⟩ := List.exists_cons_of_ne_nil ((filled_group children).1 ht).1
    obtain ⟨body, -, -, houter⟩ := exists_paced_of_root c cs mode
    rw [houter]
    exact ⟨c.home, rfl, rfl⟩

/-- **The length of a script**, with one split for every pane but the home, one command for every
split and on the outermost level one more, and two jumps for every group. -/
theorem length_script (ht : t.Filled) (hgroup : t.isGroup = true) (mode : Mode) (isRoot : Bool) :
    (t.script mode isRoot).length + (if isRoot then 1 else 2) =
      2 * t.panes.length + 2 * t.groupCount := by
  have hsplits := (splitPanes_script ht mode isRoot).length_eq
  have hcmds := (cmdPanes_script hgroup ht mode isRoot).length_eq
  have hjumps := length_jumpPanes_script ht hgroup mode isRoot
  have hpos : 0 < t.panes.length := List.length_pos_of_mem (home_mem_panes ht)
  rw [length_eq_panes, hsplits, hcmds, hjumps, List.length_tail]
  cases isRoot with
  | false =>
    rw [if_neg Bool.false_ne_true, if_neg Bool.false_ne_true, List.length_tail]
    omega
  | true =>
    rw [if_pos rfl, if_pos rfl]
    omega

/-- **Every pane is created and commanded once, in one place.** A tree without empty groups
compiles, in every mode and on every level. Its instructions split off every pane but the first, as
often as it stands in the tree. If it is a group, they run the command of every pane, but for the
first one further in. Behind every split stands the command of its pane; before every command stands
the split of its pane, or the first jump of the outermost level, to the same pane, and a group does
begin with these two there. There are two jumps for every group, so the number of instructions
depends on nothing but the numbers of panes and groups. A lone pane is jumped to.

**Proof sketch.** The instructions are the script of the tree (`compileAt_eq_script`), and the parts
of the statement are what has been counted of scripts. -/
theorem compile_census {t : Tree} (ht : t.Filled) (mode : Mode) (isRoot : Bool) :
    ∃ queue, t.compile mode isRoot = .ok queue ∧
      (splitPanes queue).Perm t.panes.tail ∧
      (t.isGroup = true →
        (cmdPanes queue).Perm (if isRoot then t.panes else t.panes.tail)) ∧
      (∀ k m p, queue[k]? = some (.split m p) → queue[k + 1]? = some (.cmd p)) ∧
      (∀ k p, queue[k]? = some (.cmd p) →
        (∃ j m, k = j + 1 ∧ queue[j]? = some (.split m p)) ∨
          isRoot = true ∧ k = 1 ∧ queue[0]? = some (.jump p)) ∧
      (t.isGroup = true → isRoot = true →
        ∃ p, queue[0]? = some (.jump p) ∧ queue[1]? = some (.cmd p)) ∧
      (t.isGroup = true → (jumpPanes queue).length = 2 * t.groupCount ∧
        queue.length + (if isRoot then 1 else 2) = 2 * t.panes.length + 2 * t.groupCount) ∧
      ∀ i, t = .pane i → queue = [.jump i] := by
  refine ⟨t.script mode isRoot, compileAt_eq_script ht mode isRoot [],
    splitPanes_script ht mode isRoot, fun hgroup => cmdPanes_script hgroup ht mode isRoot,
    fun k m p hk => cmd_behind_split hk, fun k p hk => split_before_cmd hk, ?_,
    fun hgroup => ⟨length_jumpPanes_script ht hgroup mode isRoot,
      length_script ht hgroup mode isRoot⟩, ?_⟩
  · rintro hgroup rfl
    exact root_begins ht hgroup mode
  · rintro i rfl
    rw [script]

/-- A pane that stands twice in a nested group is split off twice and commanded twice, and the first
pane of the group neither, since it is there already. -/
theorem compile_census_repeated :
    let t : Tree := .group [.group [.pane 4, .pane 1], .group [.pane 1], .pane 0]
    t.Filled ∧ ∃ queue, t.compile .tab false = .ok queue ∧ (splitPanes queue).Perm [1, 1, 0] ∧
      (cmdPanes queue).Perm [1, 1, 0] ∧ (jumpPanes queue).length = 6 ∧ queue.length + 2 = 14 := by
  intro t
  have ht : t.Filled := by simp [t]
  obtain ⟨queue, hqueue, hsplits, hcmds, -, -, -, hjumps, -⟩ := compile_census ht .tab false
  have hpanes : t.panes = [4, 1, 1, 0] := by decide
  have hgroups : t.groupCount = 3 := by decide
  rw [hpanes] at hsplits hcmds hjumps
  rw [hgroups] at hjumps
  exact ⟨ht, queue, hqueue, hsplits, hcmds rfl, (hjumps rfl).1, (hjumps rfl).2⟩

end Tree

end PaneLayout
