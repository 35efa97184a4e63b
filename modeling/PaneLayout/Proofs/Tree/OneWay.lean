import PaneLayout.Proofs.Tree.Numbering

set_option autoImplicit false

/-!
# Coming back to the first pane

Every plan begins at pane `0` and ends there. In between, once something has been split off, its
queue comes back to pane `0` exactly if the first child of the layout is a group: the script of that
group begins and ends with a jump to its home, which is pane `0`.

## Main definitions

* `PaneLayout.OneWay` — a queue that does not come back to pane `0` after a split.

## Main results

* `PaneLayout.Tree.pane_mem_of_mem_script` — the instructions of a tree are about its own panes.
* `PaneLayout.Tree.oneWay_script_iff` — the trees whose script comes back to pane `0` only at its
  end.
* `PaneLayout.Plan.oneWay_queue_iff` — the same of layouts and their plans.
-/

namespace PaneLayout

/-- **One way**: after a split, no instruction is about pane `0`. -/
def OneWay (queue : List Instruction) : Prop :=
  queue.Pairwise fun i j => i.isSplit = true → j.pane ≠ 0

/-- A queue without a split goes one way. -/
theorem oneWay_of_no_split {queue : List Instruction} (h : ∀ i ∈ queue, i.isSplit = false) :
    OneWay queue := by
  refine List.pairwise_of_forall_mem_list fun i hi j _ hsplit => ?_
  rw [h i hi] at hsplit
  exact absurd hsplit Bool.false_ne_true

/-- One more instruction leaves the queue one way unless it is about pane `0`, behind a split. -/
theorem oneWay_append_singleton (queue : List Instruction) (j : Instruction) :
    OneWay (queue ++ [j]) ↔ OneWay queue ∧ (j.pane = 0 → ∀ i ∈ queue, i.isSplit = false) := by
  simp only [OneWay, List.pairwise_append, List.pairwise_singleton, true_and, List.mem_singleton,
    forall_eq]
  grind

/-- What goes one way except for its end does so up to any point, except for the end there. -/
theorem OneWay.dropLast_left {queue rest : List Instruction}
    (h : OneWay (queue ++ rest).dropLast) : OneWay queue.dropLast := by
  cases rest with
  | nil => rwa [List.append_nil] at h
  | cons i rest =>
    rw [List.dropLast_append_of_ne_nil (List.cons_ne_nil i rest)] at h
    exact (List.pairwise_append.1 h).1.sublist (List.dropLast_sublist queue)

namespace Tree

variable {t c : Tree} {cs ts : List Tree} {mode : Mode} {isRoot : Bool} {i : Instruction}

/-! ### The panes of a script -/

/-- Arrivals are about the homes of the trees that arrive. -/
theorem exists_home_of_mem_arrivals (h : i ∈ arrivals mode ts) : ∃ t ∈ ts, i.pane = t.home := by
  obtain ⟨t, ht, hi⟩ := List.mem_flatMap.1 h
  refine ⟨t, ht, ?_⟩
  simp only [List.mem_cons, List.not_mem_nil, or_false] at hi
  rcases hi with rfl | rfl
  · rfl
  · rfl

/-- The opening of a group is about the homes of its children. -/
theorem exists_home_of_mem_opening (h : i ∈ opening mode isRoot ts) :
    ∃ t ∈ ts, i.pane = t.home := by
  cases ts with
  | nil => exact absurd h List.not_mem_nil
  | cons t ts =>
    rcases List.mem_cons.1 h with rfl | h
    · exact ⟨t, List.mem_cons_self, rfl⟩
    rcases List.mem_append.1 h with h | h
    · cases isRoot with
      | false => exact absurd h List.not_mem_nil
      | true =>
        obtain rfl := List.mem_singleton.1 h
        exact ⟨t, List.mem_cons_self, rfl⟩
    · obtain ⟨u, hu, hi⟩ := exists_home_of_mem_arrivals h
      exact ⟨u, List.mem_cons_of_mem t hu, hi⟩

/-- The scripts of the groups among some trees are scripts of some of the trees. -/
theorem exists_script_of_mem_scripts (h : i ∈ scripts mode ts) :
    ∃ t ∈ ts, i ∈ t.script mode false := by
  induction ts with
  | nil => exact absurd h List.not_mem_nil
  | cons t ts ih =>
    rw [scripts] at h
    rcases List.mem_append.1 h with h | h
    · split at h
      · exact ⟨t, List.mem_cons_self, h⟩
      · exact absurd h List.not_mem_nil
    · obtain ⟨u, hu, hi⟩ := ih h
      exact ⟨u, List.mem_cons_of_mem t hu, hi⟩

/-- **The instructions of a tree are about its own panes.** -/
theorem pane_mem_of_mem_script (ht : t.Filled) (h : i ∈ t.script mode isRoot) :
    i.pane ∈ t.panes := by
  induction t using induct generalizing mode isRoot with
  | pane p =>
    rw [script, List.mem_singleton] at h
    rw [h, panes_pane]
    exact List.mem_singleton_self p
  | group children ih =>
    have hall := ((filled_group children).1 ht).2
    rw [script, List.mem_append, List.mem_append, List.mem_singleton] at h
    rcases h with (h | h) | rfl
    · obtain ⟨c, hc, hi⟩ := exists_home_of_mem_opening h
      rw [panes_group, hi]
      exact List.mem_flatMap_of_mem hc (home_mem_panes (hall c hc))
    · obtain ⟨c, hc, hi⟩ := exists_script_of_mem_scripts h
      rw [panes_group]
      exact List.mem_flatMap_of_mem hc (ih c hc (hall c hc) hi)
    · exact home_mem_panes ht

/-! ### One way -/

/-- If the first child is a pane, nothing between the beginning and the end of the outermost script
is about that pane. -/
theorem oneWay_of_pane_first (hnodup : (group (.pane 0 :: cs)).panes.Nodup)
    (hall : ∀ c ∈ cs, c.Filled) (mode : Mode) :
    OneWay ((group (.pane 0 :: cs)).script mode true).dropLast := by
  rw [panes_group, List.flatMap_cons, panes_pane, List.singleton_append, List.nodup_cons] at hnodup
  have hother : ∀ i ∈ arrivals mode cs ++ scripts mode.next cs, i.pane ≠ 0 := by
    intro i hi hzero
    refine hnodup.1 (List.mem_flatMap.2 ?_)
    rcases List.mem_append.1 hi with hi | hi
    · obtain ⟨c, hc, hpane⟩ := exists_home_of_mem_arrivals hi
      exact ⟨c, hc, hzero ▸ hpane ▸ home_mem_panes (hall c hc)⟩
    · obtain ⟨c, hc, hpane⟩ := exists_script_of_mem_scripts hi
      exact ⟨c, hc, hzero ▸ pane_mem_of_mem_script (hall c hc) hpane⟩
  have hscript : ((group (.pane 0 :: cs)).script mode true).dropLast =
      .jump 0 :: .cmd 0 :: (arrivals mode cs ++ scripts mode.next cs) := by
    rw [script, List.dropLast_concat]
    simp [opening, scripts, isGroup]
  rw [hscript, OneWay, List.pairwise_cons, List.pairwise_cons]
  refine ⟨fun j _ hsplit => ?_, fun j _ hsplit => ?_, ?_⟩
  · exact absurd hsplit (by simp [Instruction.isSplit])
  · exact absurd hsplit (by simp [Instruction.isSplit])
  · exact List.pairwise_of_forall_mem_list fun i _ j hj _ => hother j hj

/-- If the first child is a group, its script ends at pane `0`; and if there is a split at all, one
comes before that end. -/
theorem not_oneWay_of_group_first (hhome : c.home = 0) (hc : c.isGroup = true)
    (hsplit : ∃ i ∈ (group (c :: cs)).script mode true, i.isSplit = true) :
    ¬ OneWay ((group (c :: cs)).script mode true).dropLast := by
  obtain ⟨front, hfront⟩ : ∃ front, c.script mode.next false = front ++ [.jump 0] := by
    cases c with
    | pane p => simp [isGroup] at hc
    | group children => exact ⟨_, by rw [script, hhome]⟩
  have hscript : ((group (c :: cs)).script mode true).dropLast =
      (opening mode true (c :: cs) ++ front) ++ .jump 0 :: scripts mode.next cs := by
    rw [script, List.dropLast_concat, scripts, if_pos hc, hfront]
    simp
  have hbefore : ∃ i ∈ opening mode true (c :: cs) ++ front, i.isSplit = true := by
    obtain ⟨i, hi, hisplit⟩ := hsplit
    rw [script, scripts, if_pos hc, hfront] at hi
    cases cs with
    | nil =>
      refine ⟨i, ?_, hisplit⟩
      simp only [scripts, List.append_nil, List.mem_append, List.mem_singleton] at hi
      rcases hi with (hi | hi | rfl) | rfl
      · exact List.mem_append_left _ hi
      · exact List.mem_append_right _ hi
      · simp [Instruction.isSplit] at hisplit
      · simp [Instruction.isSplit] at hisplit
    | cons d ds => exact ⟨.split mode d.home, by simp [opening, arrivals], rfl⟩
  rw [hscript]
  intro honeWay
  obtain ⟨i, hi, hisplit⟩ := hbefore
  exact (List.pairwise_append.1 honeWay).2.2 i hi (.jump 0) List.mem_cons_self hisplit rfl

/-- **Trees with a one-way script.** Except for its end, the script of a tree goes one way exactly
if it has no split or if its first child is a pane. -/
theorem oneWay_script_iff (ht : t.Filled) (hhome : t.home = 0) (hnodup : t.panes.Nodup)
    (mode : Mode) :
    OneWay (t.script mode true).dropLast ↔
      (∀ i ∈ t.script mode true, i.isSplit = false) ∨
        ∀ c cs, t = group (c :: cs) → c.isGroup = false := by
  cases t with
  | pane p =>
    refine iff_of_true ?_ (.inr fun c cs h => by simp at h)
    rw [script]
    exact List.Pairwise.nil
  | group children =>
    obtain ⟨hne, hall⟩ := (filled_group children).1 ht
    obtain ⟨c, cs, rfl⟩ := List.exists_cons_of_ne_nil hne
    rw [home_group_cons] at hhome
    constructor
    · intro honeWay
      by_contra hcon
      obtain ⟨hsplit, hgroup⟩ := not_or.1 hcon
      refine not_oneWay_of_group_first hhome ?_ ?_ honeWay
      · simpa using hgroup
      · simpa using hsplit
    · rintro (hnone | hpane)
      · exact oneWay_of_no_split fun i hi => hnone i (List.dropLast_subset _ hi)
      · cases c with
        | group inner => exact absurd (hpane _ _ rfl) (by simp [isGroup])
        | pane p =>
          obtain rfl : p = 0 := by simpa using hhome
          exact oneWay_of_pane_first hnodup (fun d hd => hall d (List.mem_cons_of_mem _ hd)) mode

end Tree

/-- A layout whose first child is a group becomes such a tree, and no other layout does. -/
theorem Node.group_first_iff {n : Node} {path : Path} {reg reg' : Registry} {t : Tree}
    (h : n.convert path reg = .ok (t, reg')) :
    (∀ c cs, t = .group (c :: cs) → c.isGroup = false) ↔
      ∀ inner rest, n ≠ .group (.group inner :: rest) := by
  cases n with
  | command text =>
    simp only [convert, Except.ok.injEq, Prod.mk.injEq] at h
    simp [← h.1]
  | invalid value => simp [convert] at h
  | group children =>
    obtain ⟨hne, ts, rfl, hrest⟩ := exists_of_convert_group h
    obtain ⟨n, ns, rfl⟩ := List.exists_cons_of_ne_nil hne
    obtain ⟨u, us, mid, rfl, hn, -⟩ := exists_of_convertChildren_cons hrest
    have hfirst := isGroup_of_convert hn
    cases n <;> simp_all [isGroup]

/-- **Plans with a one-way queue.** Except for its end, the queue of a plan goes one way exactly if
it has no split or if its layout does not open with a group inside the outermost one. -/
theorem Plan.oneWay_queue_iff {config : LayoutConfig} {defaultEntry : String} {plan : Plan}
    (h : build config defaultEntry = .ok plan) :
    OneWay plan.queue.dropLast ↔ (∀ i ∈ plan.queue, i.isSplit = false) ∨
      ∀ inner rest, config.layout ≠ .group (.group inner :: rest) := by
  obtain ⟨t, hfilled, hhome, hpanes, hqueue, -, hconvert⟩ := exists_tree h
  have hnodup : t.panes.Nodup := hpanes ▸ List.nodup_range
  rw [hqueue, Tree.oneWay_script_iff hfilled hhome hnodup, Node.group_first_iff hconvert]

end PaneLayout
