import Mathlib.Data.List.Lex
import PaneLayout.FileTree
import PaneLayout.Tree

set_option autoImplicit false

/-!
# Places in a layout

A fault is reported with the place of the node, written as child indices with a slash before each.
The text can be read back, so it leads to one node and to no other. Of several faults the first one
is reported, where places are compared in lexicographic order: a node stands before the nodes below
it, and these stand before its later siblings and all that is below them.

## Main definitions

* `PaneLayout.Path.ofText?` — the place that a text stands for.
* `PaneLayout.Node.get?` — the node at a place.
* `PaneLayout.Node.faultAt?`, `PaneLayout.Node.SoundAt` — what is wrong with the node at a place,
  and where nothing is.
* `PaneLayout.Node.Faultless`, `PaneLayout.Node.FirstFault` — layouts without a fault, and the first
  fault of the others.

## Main results

* `PaneLayout.Path.ofText?_text` — places are read back from their texts.
* `PaneLayout.Node.faultAt?_group_cons` — the faults of a group are those of its children.
* `PaneLayout.Node.FirstFault.group` — the first fault of a group is that of the first child that
  has one.
-/

namespace PaneLayout

/-! ### The text of a place -/

/-- A part without slashes ends at the next slash. -/
theorem FilePath.splitSlashes_append {part : List Char} (h : '/' ∉ part) (rest : List Char) :
    splitSlashes (part ++ '/' :: rest) = part :: splitSlashes rest := by
  induction part with
  | nil => rfl
  | cons c part ih =>
    have hc : c ≠ '/' := fun heq => h (heq ▸ List.mem_cons_self)
    have hrest := ih fun hmem => h (List.mem_cons_of_mem c hmem)
    simp [splitSlashes, hc, hrest]

/-- A text without slashes is one part. -/
theorem FilePath.splitSlashes_of_notMem {part : List Char} (h : '/' ∉ part) :
    splitSlashes part = [part] := by
  induction part with
  | nil => rfl
  | cons c part ih =>
    have hc : c ≠ '/' := fun heq => h (heq ▸ List.mem_cons_self)
    have hrest := ih fun hmem => h (List.mem_cons_of_mem c hmem)
    simp [splitSlashes, hc, hrest]

namespace Path

/-- The number that some digits stand for. -/
def index? (digits : List Char) : Option Nat :=
  if digits ≠ [] ∧ digits.all Char.isDigit then some (Nat.ofDigitChars 10 digits 0) else none

/-- **Reading a place.** A lone slash stands for the root; otherwise a child index stands behind
every slash. -/
def ofText? (text : String) : Option Path :=
  match FilePath.splitSlashes text.toList with
  | [[], []] => some []
  | [] :: parts => parts.mapM index?
  | _ => none

/-- Digits are no slashes. -/
theorem slash_notMem_toDigits (n : Nat) : '/' ∉ Nat.toDigits 10 n := by
  intro hmem
  have hdigit := Nat.isDigit_of_mem_toDigits (by decide) (by decide) hmem
  exact absurd hdigit (by decide)

/-- An index is read back from its digits. -/
theorem index?_toDigits (n : Nat) : index? (Nat.toDigits 10 n) = some n := by
  have hall : (Nat.toDigits 10 n).all Char.isDigit = true :=
    List.all_eq_true.2 fun c hc => Nat.isDigit_of_mem_toDigits (by decide) (by decide) hc
  rw [index?, if_pos ⟨Nat.toDigits_ne_nil, hall⟩, Nat.ofDigitChars_ten_toDigits]

/-- The characters of a place other than the root. -/
theorem toList_text_cons (i : Nat) (path : Path) :
    (Path.text (i :: path)).toList = '/' :: (Nat.toDigits 10 i ++
      path.flatMap fun j => '/' :: Nat.toDigits 10 j) := by
  simp [text, String.toList_join, List.flatMap_map, Nat.toList_repr, toString]

/-- The parts of a place are the digits of its indices. -/
theorem splitSlashes_indices (i : Nat) (path : Path) :
    FilePath.splitSlashes (Nat.toDigits 10 i ++ path.flatMap fun j => '/' :: Nat.toDigits 10 j) =
      (i :: path).map (Nat.toDigits 10) := by
  induction path generalizing i with
  | nil =>
    rw [List.flatMap_nil, List.append_nil]
    exact FilePath.splitSlashes_of_notMem (slash_notMem_toDigits i)
  | cons j path ih =>
    rw [List.flatMap_cons, List.cons_append,
      FilePath.splitSlashes_append (slash_notMem_toDigits i), ih, List.map_cons, List.map_cons,
      List.map_cons]

/-- Indices are read back from their digits. -/
theorem mapM_index? (path : Path) :
    (path.map (Nat.toDigits 10)).mapM index? = some path := by
  induction path with
  | nil => rfl
  | cons i path ih => simp [List.mapM_cons, index?_toDigits, ih]

/-- **Places are read back** from their texts; so two places with the same text are the same. -/
theorem ofText?_text (path : Path) : ofText? path.text = some path := by
  cases path with
  | nil => rfl
  | cons i path =>
    have hsplit : FilePath.splitSlashes (Path.text (i :: path)).toList =
        [] :: (i :: path).map (Nat.toDigits 10) := by
      rw [toList_text_cons, ← splitSlashes_indices]
      rfl
    have hne : Nat.toDigits 10 i ≠ [] := Nat.toDigits_ne_nil
    rw [ofText?, hsplit]
    split
    case h_1 heq => simp_all
    case h_2 parts _ heq =>
      obtain ⟨-, rfl⟩ := List.cons.inj heq
      exact mapM_index? (i :: path)
    case h_3 heq => exact absurd rfl (heq _)

end Path

/-! ### Nodes and their faults -/

namespace Node

/-- **The node at a place**, found by going down from child to child. -/
def get? : Node → Path → Option Node
  | n, [] => some n
  | .group children, i :: path =>
    match children[i]? with
    | some child => child.get? path
    | none => none
  | .command _, _ :: _ => none
  | .invalid _, _ :: _ => none

/-- What is wrong with a node that stands at the given place, if anything: a group may have no
children, and what is no command and no group is malformed. -/
def fault? (place : Path) : Node → Option LayoutFault
  | .group [] => some (.emptyGroup place)
  | .invalid value => some (.malformedNode place value)
  | _ => none

/-- **What is wrong with the node at a path** below a node that stands at the given place. -/
def faultAt? (place : Path) (n : Node) (path : Path) : Option LayoutFault :=
  (n.get? path).bind (fault? (place ++ path))

/-- Nothing is at fault in a node that stands at the given place. -/
def Faultless (place : Path) (n : Node) : Prop := ∀ path, n.faultAt? place path = none

/-- **Sound places**: there is neither an empty group nor anything but commands and groups. -/
def SoundAt (n : Node) (path : Path) : Prop :=
  n.get? path ≠ some (.group []) ∧ ∀ value, n.get? path ≠ some (.invalid value)

/-- **The first fault** of a node that stands at the given place: it is found at the path, and none
is found before. -/
structure FirstFault (place : Path) (n : Node) (path : Path) (fault : LayoutFault) : Prop where
  here : n.faultAt? place path = some fault
  first : ∀ earlier < path, n.faultAt? place earlier = none

section Faults

variable {place path : Path} {n child : Node} {children : List Node} {fault : LayoutFault} {i : Nat}

@[simp] theorem get?_nil (n : Node) : n.get? [] = some n := by
  cases n <;> rfl

@[simp] theorem get?_group_cons (children : List Node) (i : Nat) (path : Path) :
    (group children).get? (i :: path) = children[i]?.bind (get? · path) := by
  rw [get?]
  cases children[i]? <;> rfl

/-- The faults of a group are those of its children. -/
theorem faultAt?_group_cons (place : Path) (children : List Node) (i : Nat) (path : Path) :
    (group children).faultAt? place (i :: path) =
      children[i]?.bind fun child => child.faultAt? (place ++ [i]) path := by
  rw [faultAt?, get?_group_cons]
  cases children[i]? with
  | none => rfl
  | some child => simp [faultAt?]

/-- A group that has children is not at fault itself. -/
theorem faultAt?_group_nil (place : Path) (h : children ≠ []) :
    (group children).faultAt? place [] = none := by
  cases children with
  | nil => exact absurd rfl h
  | cons child children => rfl

/-- **A fault is an empty group or a node that is no command and no group.** -/
theorem faultAt?_eq_some_iff : n.faultAt? place path = some fault ↔
    (n.get? path = some (.group []) ∧ fault = .emptyGroup (place ++ path)) ∨
      ∃ value, n.get? path = some (.invalid value) ∧
        fault = .malformedNode (place ++ path) value := by
  rw [faultAt?]
  cases n.get? path with
  | none => simp
  | some m =>
    cases m with
    | command text => simp [fault?]
    | invalid value => simp [fault?, eq_comm]
    | group children => cases children <;> simp [fault?, eq_comm]

/-- At sound places nothing is at fault, and only there. -/
theorem faultAt?_eq_none_iff : n.faultAt? place path = none ↔ n.SoundAt path := by
  rw [faultAt?, SoundAt]
  cases n.get? path with
  | none => simp
  | some m =>
    cases m with
    | command text => simp [fault?]
    | invalid value => simp [fault?]
    | group children => cases children <;> simp [fault?]

/-- The first fault of a layout as a whole. -/
theorem firstFault_root_iff : n.FirstFault [] path fault ↔
    ((n.get? path = some (.group []) ∧ fault = .emptyGroup path) ∨
      ∃ value, n.get? path = some (.invalid value) ∧ fault = .malformedNode path value) ∧
      ∀ earlier < path, n.SoundAt earlier := by
  constructor
  · intro h
    exact ⟨faultAt?_eq_some_iff.1 h.here, fun q hq => faultAt?_eq_none_iff.1 (h.first q hq)⟩
  · rintro ⟨hhere, hfirst⟩
    exact ⟨faultAt?_eq_some_iff.2 hhere, fun q hq => faultAt?_eq_none_iff.2 (hfirst q hq)⟩

/-- A node that is at fault itself has no fault before that. -/
theorem FirstFault.root (h : n.fault? place = some fault) : FirstFault place n [] fault := by
  constructor
  · simpa [faultAt?] using h
  · intro earlier hlt
    exact absurd hlt (List.not_lt_nil earlier)

/-- A group that has children is faultless if all of them are. -/
theorem Faultless.group (hne : children ≠ [])
    (h : ∀ (i : Nat) (child : Node), children[i]? = some child →
      child.Faultless (place ++ [i])) : (Node.group children).Faultless place := by
  intro path
  cases path with
  | nil => exact faultAt?_group_nil place hne
  | cons i path =>
    rw [faultAt?_group_cons]
    cases hchild : children[i]? with
    | none => rfl
    | some child => exact h i child hchild path

/-- **The first fault of a group** is the first fault of a child, if the children before it have
none. -/
theorem FirstFault.group (hchild : children[i]? = some child)
    (h : FirstFault (place ++ [i]) child path fault)
    (hearlier : ∀ j < i, ∀ sibling : Node, children[j]? = some sibling →
      sibling.Faultless (place ++ [j])) :
    FirstFault place (.group children) (i :: path) fault := by
  constructor
  · rw [faultAt?_group_cons, hchild, Option.bind_some, h.here]
  · intro earlier hlt
    cases earlier with
    | nil =>
      refine faultAt?_group_nil place ?_
      rintro rfl
      simp at hchild
    | cons j q =>
      rw [faultAt?_group_cons]
      rcases List.cons_lt_cons_iff.1 hlt with hj | ⟨rfl, hq⟩
      · cases hsibling : children[j]? with
        | none => rfl
        | some sibling => exact hearlier j hj sibling hsibling q
      · rw [hchild, Option.bind_some]
        exact h.first q hq

/-- A layout has at most one first fault. -/
theorem FirstFault.unique {path' : Path} {fault' : LayoutFault}
    (h : FirstFault place n path fault) (h' : FirstFault place n path' fault') :
    path = path' ∧ fault = fault' := by
  have hpath : path = path' := by
    rcases lt_trichotomy path path' with hlt | heq | hgt
    · simpa [h.here] using h'.first path hlt
    · exact heq
    · simpa [h'.here] using h.first path' hgt
  subst hpath
  exact ⟨rfl, Option.some.inj (h.here.symm.trans h'.here)⟩

end Faults

end Node

end PaneLayout
