import PaneLayout.Proofs.Tree.Script

set_option autoImplicit false

/-!
# Trees that do not compile

The compiler does not look for empty groups. It asks every tree for its leftmost pane, and an empty
group shows in that some tree has none. So no empty group is missed, wherever it is, but what is
reported is the tree that was asked: a group may be reported as empty that has children, if the way
down its first children ends in an empty group.

## Main definitions

* `PaneLayout.Tree.get?` — the tree at a place.
* `PaneLayout.Tree.HeadlessAt` — places where the tree has no leftmost pane.
* `PaneLayout.Path.Precedes` — the order in which the compiler asks.
* `PaneLayout.Tree.FirstHeadless` — the first headless place in this order.

## Main results

* `PaneLayout.Tree.representative?_eq_none_iff` — headless trees lead down to an empty group.
* `PaneLayout.Tree.inspected` — a tree is compiled, or its first headless place is reported.
* `PaneLayout.Tree.compile_refusal` — which trees are not compiled, and when the place that is
  reported is that of an empty group.
-/

namespace PaneLayout

/-- **The order in which the compiler asks.** The root comes first. All children of a group come
before what is below them, and what is below a child comes before what is below a later one. -/
def Path.Precedes : Path → Path → Prop
  | _, [] => False
  | [], _ :: _ => True
  | [i], [j] => i < j
  | [_], _ :: _ :: _ => True
  | _ :: _ :: _, [_] => False
  | i :: i' :: p, j :: j' :: q => i < j ∨ i = j ∧ Precedes (i' :: p) (j' :: q)

/-- Nothing comes before the root. -/
theorem Path.not_precedes_nil (p : Path) : ¬ p.Precedes [] := by
  cases p <;> simp [Precedes]

/-- Of two places, one comes first. -/
theorem Path.precedes_trichotomy (p q : Path) : p = q ∨ p.Precedes q ∨ q.Precedes p := by
  induction p generalizing q with
  | nil => cases q <;> simp [Precedes]
  | cons i p ih =>
    match p, q with
    | p, [] => simp [Precedes]
    | [], [j] =>
      rcases Nat.lt_trichotomy i j with hlt | rfl | hgt
      · exact .inr (.inl hlt)
      · exact .inl rfl
      · exact .inr (.inr hgt)
    | [], j :: j' :: q => simp [Precedes]
    | i' :: p, [j] => simp [Precedes]
    | i' :: p, j :: j' :: q =>
      rcases Nat.lt_trichotomy i j with hlt | rfl | hgt
      · exact .inr (.inl (.inl hlt))
      · rcases ih (j' :: q) with heq | hbefore | hafter
        · exact .inl (by rw [heq])
        · exact .inr (.inl (.inr ⟨rfl, hbefore⟩))
        · exact .inr (.inr (.inr ⟨rfl, hafter⟩))
      · exact .inr (.inr (.inl hgt))

namespace Tree

/-! ### Places -/

/-- **The tree at a place**, found by going down from child to child. -/
def get? : Tree → Path → Option Tree
  | t, [] => some t
  | .group children, i :: path =>
    match children[i]? with
    | some child => child.get? path
    | none => none
  | .pane _, _ :: _ => none

/-- **Headless places**: the tree there has no leftmost pane. -/
def HeadlessAt (t : Tree) (path : Path) : Prop :=
  ∃ u, t.get? path = some u ∧ u.representative? = none

/-- **The first headless place** of a tree, in the order in which the compiler asks. -/
structure FirstHeadless (t : Tree) (path : Path) : Prop where
  here : t.HeadlessAt path
  first : ∀ earlier : Path, earlier.Precedes path → ¬ t.HeadlessAt earlier

section Places

variable {t c : Tree} {children : List Tree} {path : Path} {i : Nat}

@[simp] theorem get?_nil (t : Tree) : t.get? [] = some t := by
  cases t <;> rfl

@[simp] theorem get?_pane_cons (index i : Nat) (path : Path) :
    (pane index).get? (i :: path) = none := rfl

@[simp] theorem get?_group_cons (children : List Tree) (i : Nat) (path : Path) :
    (group children).get? (i :: path) = children[i]?.bind (get? · path) := by
  rw [get?]
  cases children[i]? <;> rfl

/-- The tree at a longer place is found from where the shorter one leads. -/
theorem get?_append (t : Tree) (path more : Path) :
    t.get? (path ++ more) = (t.get? path).bind (get? · more) := by
  induction path generalizing t with
  | nil => simp
  | cons i path ih =>
    cases t with
    | pane index => rfl
    | group children =>
      rw [List.cons_append, get?_group_cons, get?_group_cons]
      cases children[i]? with
      | none => rfl
      | some child => simp [ih]

/-- A tree is headless at its root if it has no leftmost pane. -/
theorem headlessAt_nil : t.HeadlessAt [] ↔ t.representative? = none := by
  simp [HeadlessAt]

/-- The headless places below a group are those of its children. -/
theorem headlessAt_group_cons :
    (group children).HeadlessAt (i :: path) ↔
      ∃ child, children[i]? = some child ∧ child.HeadlessAt path := by
  constructor
  · rintro ⟨u, hget, hnone⟩
    rw [get?_group_cons, Option.bind_eq_some_iff] at hget
    obtain ⟨child, hchild, hget⟩ := hget
    exact ⟨child, hchild, u, hget, hnone⟩
  · rintro ⟨child, hchild, u, hget, hnone⟩
    exact ⟨u, by rw [get?_group_cons, hchild, Option.bind_some, hget], hnone⟩

/-- A lone pane has no headless place. -/
theorem not_headlessAt_pane (index : Nat) (path : Path) : ¬ (pane index).HeadlessAt path := by
  rintro ⟨u, hget, hnone⟩
  cases path with
  | nil =>
    obtain rfl : pane index = u := by simpa using hget
    simp [representative?] at hnone
  | cons i path => simp at hget

/-- The leftmost pane of a group is that of its first child. -/
theorem representative?_group_cons (t : Tree) (ts : List Tree) :
    (group (t :: ts)).representative? = t.representative? := by
  rw [representative?, firstRepresentative?]

/-- **Headless trees lead down to an empty group**, from first child to first child. -/
theorem representative?_eq_none_iff :
    t.representative? = none ↔ ∃ depth, t.get? (List.replicate depth 0) = some (group []) := by
  induction t using induct with
  | pane index =>
    refine iff_of_false (by simp [representative?]) ?_
    rintro ⟨depth, hget⟩
    cases depth <;> simp [List.replicate_succ] at hget
  | group children ih =>
    cases children with
    | nil => exact iff_of_true rfl ⟨0, by simp⟩
    | cons c cs =>
      rw [representative?_group_cons, ih c List.mem_cons_self]
      constructor
      · rintro ⟨depth, hget⟩
        exact ⟨depth + 1, by simpa [List.replicate_succ] using hget⟩
      · rintro ⟨depth, hget⟩
        cases depth with
        | zero => simp at hget
        | succ depth => exact ⟨depth, by simpa [List.replicate_succ] using hget⟩

/-- A headless place is that of an empty group, or stops short of one by some first children. -/
theorem headlessAt_iff :
    t.HeadlessAt path ↔ ∃ depth, t.get? (path ++ List.replicate depth 0) = some (group []) := by
  simp only [get?_append, Option.bind_eq_some_iff, HeadlessAt, representative?_eq_none_iff]
  constructor
  · rintro ⟨u, hget, depth, hdown⟩
    exact ⟨depth, u, hget, hdown⟩
  · rintro ⟨depth, u, hget, hdown⟩
    exact ⟨u, hget, depth, hdown⟩

/-- The first headless place is unique. -/
theorem FirstHeadless.unique {path' : Path} (h : t.FirstHeadless path)
    (h' : t.FirstHeadless path') : path = path' := by
  rcases path.precedes_trichotomy path' with heq | hbefore | hafter
  · exact heq
  · exact absurd h.here (h'.first path hbefore)
  · exact absurd h'.here (h.first path' hafter)

/-- Nothing is asked before the root. -/
theorem FirstHeadless.root (h : t.representative? = none) : t.FirstHeadless [] :=
  ⟨headlessAt_nil.2 h, fun earlier hbefore => absurd hbefore earlier.not_precedes_nil⟩

/-- **The first headless child** of a group with a leftmost pane is its first headless place. -/
theorem FirstHeadless.child (hhome : (group children).representative? ≠ none)
    (hchild : children[i]? = some c) (h : c.representative? = none)
    (hearlier : ∀ j < i, ∀ sibling, children[j]? = some sibling →
      sibling.representative? ≠ none) : (group children).FirstHeadless [i] := by
  refine ⟨headlessAt_group_cons.2 ⟨c, hchild, headlessAt_nil.2 h⟩, fun earlier hbefore => ?_⟩
  match earlier, hbefore with
  | [], _ => exact mt headlessAt_nil.1 hhome
  | [j], hlt =>
    intro hhead
    obtain ⟨sibling, hsibling, hhead⟩ := headlessAt_group_cons.1 hhead
    exact hearlier j hlt sibling hsibling (headlessAt_nil.1 hhead)

/-- **The first headless place below the children** of a group is that of the first child that has
any, if all children have a leftmost pane. -/
theorem FirstHeadless.group (hhomes : ∀ c ∈ children, c.representative? ≠ none)
    (hchild : children[i]? = some c) (h : c.FirstHeadless path)
    (hearlier : ∀ j < i, ∀ sibling, children[j]? = some sibling →
      ∀ path, ¬ sibling.HeadlessAt path) : (Tree.group children).FirstHeadless (i :: path) := by
  have hhere := headlessAt_group_cons.2 ⟨c, hchild, h.here⟩
  refine ⟨hhere, fun earlier hbefore => ?_⟩
  have hchildren : ∀ j, ¬ (Tree.group children).HeadlessAt [j] := by
    intro j hhead
    obtain ⟨sibling, hsibling, hhead⟩ := headlessAt_group_cons.1 hhead
    exact hhomes sibling (List.mem_of_getElem? hsibling) (headlessAt_nil.1 hhead)
  match path, earlier, hbefore with
  | [], earlier, _ => exact absurd hhere (hchildren i)
  | i' :: path, [], _ =>
    intro hhead
    cases children with
    | nil => simp at hchild
    | cons c cs =>
      rw [headlessAt_nil, representative?_group_cons] at hhead
      exact hhomes c List.mem_cons_self hhead
  | i' :: path, [j], _ => exact hchildren j
  | i' :: path, j :: j' :: q, hbefore =>
    intro hhead
    obtain ⟨sibling, hsibling, hhead⟩ := headlessAt_group_cons.1 hhead
    rcases hbefore with hlt | ⟨rfl, hbelow⟩
    · exact hearlier j hlt sibling hsibling _ hhead
    · obtain rfl : sibling = c := Option.some.inj (hsibling.symm.trans hchild)
      exact h.first _ hbelow hhead

end Places

/-! ### What the compiler reports -/

/-- What is proved of compiling a tree: it succeeds and nothing is headless, or it reports the first
headless place. -/
def Inspected (t : Tree) (mode : Mode) (isRoot : Bool) (place : Path) : Prop :=
  (∃ queue, compileAt mode isRoot place t = .ok queue ∧ ∀ path, ¬ t.HeadlessAt path) ∨
    ∃ path, compileAt mode isRoot place t = .error (.emptyGroup (place ++ path)) ∧
      t.FirstHeadless path

/-- One step per child: all children have a leftmost pane, or the first one that has none is
reported. -/
theorem siblings_outcome (mode : Mode) (isRoot : Bool) (place : Path) (index : Nat)
    (ts : List Tree) :
    (∃ queue, siblings mode isRoot place index ts = .ok queue ∧
      ∀ t ∈ ts, t.representative? ≠ none) ∨
    ∃ k t, siblings mode isRoot place index ts = .error (.emptyGroup (place ++ [index + k])) ∧
      ts[k]? = some t ∧ t.representative? = none ∧
      ∀ j < k, ∀ u, ts[j]? = some u → u.representative? ≠ none := by
  induction ts generalizing index with
  | nil => exact .inl ⟨_, rfl, by simp⟩
  | cons t ts ih =>
    have shift : ∀ k, index + 1 + k = index + (k + 1) := fun k => by omega
    cases ht : t.representative? with
    | none =>
      refine .inr ⟨0, t, ?_, rfl, ht, fun j hj => absurd hj (Nat.not_lt_zero j)⟩
      simp [siblings, anchor, ht, bind, Except.bind]
    | some target =>
      have hsome : t.representative? ≠ none := by simp [ht]
      rcases ih (index + 1) with ⟨queue, hrest, hall⟩ | ⟨k, u, hrest, hk, hnone, hbefore⟩
      · have hhere : anchor (place ++ [index]) t = .ok target := by rw [anchor, ht]
        exact .inl ⟨_, by rw [siblings, hhere, hrest]; rfl, List.forall_mem_cons.2 ⟨hsome, hall⟩⟩
      · refine .inr ⟨k + 1, u, ?_, by simpa using hk, hnone, ?_⟩
        · simp [siblings, anchor, ht, hrest, bind, Except.bind, shift]
        · rintro (- | j) hj v hv
          · obtain rfl : t = v := by simpa using hv
            exact hsome
          · exact hbefore j (by omega) v (by simpa using hv)

/-- The first of some trees, if it is a group: its instructions come before the others, or its first
headless place is reported. -/
theorem compileGroups_cons_outcome {t : Tree} {mode : Mode}
    (ht : ∀ place, t.Inspected mode false place) (place : Path) (index : Nat) (ts : List Tree) :
    (∃ queue, compileGroups mode place index (t :: ts) =
        (compileGroups mode place (index + 1) ts).map (queue ++ ·) ∧
      ∀ path, ¬ t.HeadlessAt path) ∨
    ∃ path, compileGroups mode place index (t :: ts) =
        .error (.emptyGroup (place ++ index :: path)) ∧ t.FirstHeadless path := by
  cases t with
  | pane i => exact .inl ⟨[], rfl, not_headlessAt_pane i⟩
  | group children =>
    rcases ht (place ++ [index]) with ⟨queue, hqueue, hsound⟩ | ⟨path, hfault, hfirst⟩
    · refine .inl ⟨queue, ?_, hsound⟩
      simp only [compileGroups, isGroup, if_true, hqueue]
      rfl
    · refine .inr ⟨path, ?_, hfirst⟩
      simp [compileGroups, isGroup, hfault, bind, Except.bind]

/-- The groups among some trees: nothing in them is headless, or the first headless place of the
first one that has any is reported. -/
theorem compileGroups_outcome {ts : List Tree} {mode : Mode}
    (hts : ∀ t ∈ ts, ∀ place, t.Inspected mode false place) (place : Path) (index : Nat) :
    (∃ queue, compileGroups mode place index ts = .ok queue ∧
      ∀ t ∈ ts, ∀ path, ¬ t.HeadlessAt path) ∨
    ∃ k t path,
      compileGroups mode place index ts = .error (.emptyGroup (place ++ (index + k) :: path)) ∧
      ts[k]? = some t ∧ t.FirstHeadless path ∧
      ∀ j < k, ∀ u, ts[j]? = some u → ∀ path, ¬ u.HeadlessAt path := by
  induction ts generalizing index with
  | nil => exact .inl ⟨_, rfl, by simp⟩
  | cons t ts ih =>
    have shift : ∀ k, index + 1 + k = index + (k + 1) := fun k => by omega
    rcases compileGroups_cons_outcome (hts t List.mem_cons_self) place index ts with
      ⟨queue, hqueue, hsound⟩ | ⟨path, hfault, hfirst⟩
    · rcases ih (fun u hu => hts u (List.mem_cons_of_mem t hu)) (index + 1) with
        ⟨more, hrest, hall⟩ | ⟨k, u, path, hrest, hk, hfirst, hbefore⟩
      · refine .inl ⟨queue ++ more, ?_, List.forall_mem_cons.2 ⟨hsound, hall⟩⟩
        rw [hqueue, hrest]
        rfl
      · refine .inr ⟨k + 1, u, path, ?_, by simpa using hk, hfirst, ?_⟩
        · rw [hqueue, hrest, shift]
          rfl
        · rintro (- | j) hj v hv
          · obtain rfl : t = v := by simpa using hv
            exact hsound
          · exact hbefore j (by omega) v (by simpa using hv)
    · exact .inr ⟨0, t, path, hfault, rfl, hfirst, fun j hj => absurd hj (Nat.not_lt_zero j)⟩

/-- **A tree is compiled, or its first headless place is reported.**

**Proof sketch.** Induction on the tree. A group is asked for its own leftmost pane, then each of
its children for theirs. If all of them have one, headless places can only be below the child
groups, which are compiled in their order (`FirstHeadless.group`). -/
theorem inspected (t : Tree) (mode : Mode) (isRoot : Bool) (place : Path) :
    t.Inspected mode isRoot place := by
  induction t using induct generalizing mode isRoot place with
  | pane i => exact .inl ⟨_, by rw [compileAt], not_headlessAt_pane i⟩
  | group children ih =>
    cases hhome : (group children).representative? with
    | none =>
      refine .inr ⟨[], ?_, .root hhome⟩
      simp [compileAt, anchor, hhome, bind, Except.bind]
    | some home =>
      have hsome : (group children).representative? ≠ none := by simp [hhome]
      rcases siblings_outcome mode isRoot place 0 children with
        ⟨opening, hopening, hhomes⟩ | ⟨k, t, hfault, hk, hnone, hbefore⟩
      · rcases compileGroups_outcome (fun t ht => ih t ht mode.next false) place 0 with
          ⟨inner, hinner, hall⟩ | ⟨k, t, path, hfault, hk, hfirst, hbefore⟩
        · refine .inl ⟨opening ++ inner ++ [.jump home], ?_, fun path => ?_⟩
          · simp only [compileAt, anchor, hhome, hopening, hinner, bind, Except.bind, pure,
              Except.pure]
          · cases path with
            | nil => exact mt headlessAt_nil.1 hsome
            | cons i path =>
              intro hhead
              obtain ⟨child, hchild, hhead⟩ := headlessAt_group_cons.1 hhead
              exact hall child (List.mem_of_getElem? hchild) path hhead
        · refine .inr ⟨k :: path, ?_, .group hhomes hk hfirst hbefore⟩
          simp only [compileAt, anchor, hhome, hopening, hfault, bind, Except.bind, Nat.zero_add]
      · refine .inr ⟨[k], ?_, .child hsome hk hnone hbefore⟩
        simp only [compileAt, anchor, hhome, hfault, bind, Except.bind, Nat.zero_add]

/-- **The fault that is reported** is that of the first headless place. -/
theorem compile_error_iff {t : Tree} {mode : Mode} {isRoot : Bool} {fault : LayoutFault} :
    t.compile mode isRoot = .error fault ↔
      ∃ place, fault = .emptyGroup place ∧ t.FirstHeadless place := by
  rw [compile]
  rcases t.inspected mode isRoot [] with ⟨queue, hqueue, hsound⟩ | ⟨path, hfault, hfirst⟩
  · refine iff_of_false (by simp [hqueue]) ?_
    rintro ⟨place, -, hfirst⟩
    exact hsound place hfirst.here
  · rw [hfault, List.nil_append, Except.error.injEq]
    constructor
    · rintro rfl
      exact ⟨path, rfl, hfirst⟩
    · rintro ⟨place, rfl, hplace⟩
      rw [hfirst.unique hplace]

/-- A tree with an empty group in it is not compiled, and every other tree is. -/
theorem exists_fault_iff {t : Tree} {mode : Mode} {isRoot : Bool} :
    (∃ fault, t.compile mode isRoot = .error fault) ↔ ∃ path, t.get? path = some (group []) := by
  constructor
  · rintro ⟨fault, hfault⟩
    obtain ⟨place, -, hfirst⟩ := compile_error_iff.1 hfault
    obtain ⟨depth, hget⟩ := headlessAt_iff.1 hfirst.here
    exact ⟨_, hget⟩
  · rintro ⟨path, hget⟩
    rcases t.inspected mode isRoot [] with ⟨queue, -, hsound⟩ | ⟨place, hfault, -⟩
    · exact absurd ⟨_, hget, rfl⟩ (hsound path)
    · exact ⟨_, hfault⟩

/-- **Trees that do not compile.** A tree is not compiled exactly if there is an empty group
anywhere in it, and the fault names the first place, in the order in which the compiler asks, where
the tree has no leftmost pane. From there the way down the first children leads to an empty group,
but the place itself is that of an empty group only if this way has no steps. So the place that is
reported is that of an empty group exactly if the first headless place is; it always is where no
group begins with an empty group.

**Proof sketch.** `compile_error_iff` says which fault is reported, and a headless tree leads down
to an empty group (`headlessAt_iff`). -/
theorem compile_refusal (t : Tree) (mode : Mode) (isRoot : Bool) :
    ((∃ fault, t.compile mode isRoot = .error fault) ↔ ∃ path, t.get? path = some (group [])) ∧
    (∀ fault, t.compile mode isRoot = .error fault ↔
      ∃ place, fault = .emptyGroup place ∧ t.FirstHeadless place) ∧
    (∀ place, t.FirstHeadless place →
      ∃ depth, t.get? (place ++ List.replicate depth 0) = some (group []) ∧
        (t.get? place = some (group []) ↔ depth = 0)) ∧
    ((∀ place, t.compile mode isRoot = .error (.emptyGroup place) →
        t.get? place = some (group [])) ↔
      ∀ place, t.FirstHeadless place → t.get? place = some (group [])) ∧
    ((∀ path : Path, t.get? (path ++ [0]) ≠ some (group [])) →
      ∀ place, t.compile mode isRoot = .error (.emptyGroup place) →
        t.get? place = some (group [])) := by
  have hreported : ∀ place, t.compile mode isRoot = .error (.emptyGroup place) ↔
      t.FirstHeadless place := by
    intro place
    simp [compile_error_iff]
  refine ⟨exists_fault_iff, fun fault => compile_error_iff, fun place hfirst => ?_, ?_,
    fun hopening place hfault => ?_⟩
  · obtain ⟨depth, hget⟩ := headlessAt_iff.1 hfirst.here
    refine ⟨depth, hget, fun hempty => ?_, ?_⟩
    · -- an empty group has no first child to go down to
      rw [get?_append, hempty, Option.bind_some] at hget
      cases depth with
      | zero => rfl
      | succ depth => simp [List.replicate_succ] at hget
    · rintro rfl
      simpa using hget
  · simp only [hreported]
  · obtain ⟨depth, hget⟩ := headlessAt_iff.1 ((hreported place).1 hfault).here
    cases depth with
    | zero => simpa using hget
    | succ depth =>
      rw [List.replicate_succ', ← List.append_assoc] at hget
      exact absurd hget (hopening _)

/-- An empty group behind a pane is named, as deep as it is. -/
theorem late_empty_group_is_named :
    let t := group [.pane 0, .group [.pane 1, .group []]]
    (∀ path : Path, t.get? (path ++ [0]) ≠ some (group [])) ∧
      t.compile .tab true = .error (.emptyGroup [1, 1]) ∧ t.get? [1, 1] = some (group []) := by
  intro t
  have hopening : ∀ path : Path, t.get? (path ++ [0]) ≠ some (group []) := by
    intro path
    match path with
    | [] => simp [t]
    | [0] => simp [t]
    | [1] => simp [t]
    | [i + 2] => simp [t]
    | 0 :: _ :: _ => simp [t]
    | 1 :: 0 :: path => cases path <;> simp [t]
    | 1 :: 1 :: path => cases path <;> simp [t]
    | 1 :: (i + 2) :: _ => simp [t]
    | (i + 2) :: _ :: _ => simp [t]
  have hfault : t.compile .tab true = .error (.emptyGroup [1, 1]) := rfl
  exact ⟨hopening, hfault, (compile_refusal t .tab true).2.2.2.2 hopening [1, 1] hfault⟩

/-- A group with two children is named, since the first of them is empty. -/
theorem group_with_children_is_named :
    let t := group [.pane 0, .group [.group [], .pane 1]]
    t.compile .tab true = .error (.emptyGroup [1]) ∧
      t.get? [1] = some (.group [.group [], .pane 1]) ∧ t.get? [1] ≠ some (group []) ∧
      t.get? [1, 0] = some (group []) := by
  intro t
  exact ⟨rfl, rfl, by simp [t], rfl⟩

end Tree

end PaneLayout
