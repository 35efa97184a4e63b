import PaneLayout.Proofs.Layout.Places
import PaneLayout.Proofs.Tree.OneWay

set_option autoImplicit false

/-!
# Which configurations have a plan, and what is wrong with the others

The name of the entry mode is looked at first. Then the layout is converted in reading order, and
the first node at fault ends the conversion. What has been converted has no empty group, so
compiling it cannot fail any more: the checks of the compiler never fire.

## Main results

* `PaneLayout.Node.diagnosed` — a layout without faults is converted, and of every other one the
  first fault is reported.
* `PaneLayout.Plan.build_outcome` — the same of plans, once the entry mode is known.
* `PaneLayout.Plan.build_diagnosis` — when there is a plan, and which fault is reported when there
  is none.
-/

namespace PaneLayout

namespace Node

/-- What is proved of the conversion of a node: it succeeds and nothing is at fault, or it reports
the first fault. -/
def Diagnosed (n : Node) (place : Path) (reg : Registry) : Prop :=
  (∃ done, n.convert place reg = .ok done ∧ n.Faultless place) ∨
    ∃ path fault, n.convert place reg = .error fault ∧ FirstFault place n path fault

/-- The same of a row of siblings, the first of which has the given index: all of them are converted
and nothing is at fault, or the first fault of the first one that has any is reported. -/
def RowDiagnosed (ns : List Node) (place : Path) (index : Nat) (reg : Registry) : Prop :=
  (∃ done, convertChildren place index ns reg = .ok done ∧
    ∀ (k : Nat) (n : Node), ns[k]? = some n → n.Faultless (place ++ [index + k])) ∨
  ∃ (k : Nat) (n : Node) (path : Path) (fault : LayoutFault),
    convertChildren place index ns reg = .error fault ∧ ns[k]? = some n ∧
      FirstFault (place ++ [index + k]) n path fault ∧
      ∀ j < k, ∀ m : Node, ns[j]? = some m → m.Faultless (place ++ [index + j])

/-- What is proved of every node of a row is proved of the row. -/
theorem rowDiagnosed {ns : List Node} (hns : ∀ n ∈ ns, ∀ place reg, n.Diagnosed place reg)
    (place : Path) (index : Nat) (reg : Registry) : RowDiagnosed ns place index reg := by
  induction ns generalizing index reg with
  | nil => exact .inl ⟨_, rfl, by simp⟩
  | cons n ns ih =>
    have shift : ∀ k, index + 1 + k = index + (k + 1) := fun k => by omega
    rcases hns n List.mem_cons_self (place ++ [index]) reg with
      ⟨⟨t, mid⟩, hn, hsound⟩ | ⟨path, fault, hn, hfirst⟩
    · rcases ih (fun m hm => hns m (List.mem_cons_of_mem n hm)) (index + 1) mid with
        ⟨⟨ts, last⟩, hrest, hall⟩ | ⟨k, m, path, fault, hrest, hk, hfirst, hbefore⟩
      · refine .inl ⟨(t :: ts, last), ?_, ?_⟩
        · simp [convertChildren, hn, hrest, bind, Except.bind, pure, Except.pure]
        · rintro (- | k) m hm
          · obtain rfl : n = m := by simpa using hm
            exact hsound
          · exact shift k ▸ hall k m (by simpa using hm)
      · refine .inr ⟨k + 1, m, path, fault, ?_, by simpa using hk, shift k ▸ hfirst, ?_⟩
        · simp [convertChildren, hn, hrest, bind, Except.bind]
        · rintro (- | j) hj m' hm'
          · obtain rfl : n = m' := by simpa using hm'
            exact hsound
          · exact shift j ▸ hbefore j (by omega) m' (by simpa using hm')
    · refine .inr ⟨0, n, path, fault, ?_, rfl, hfirst, fun j hj => absurd hj (Nat.not_lt_zero j)⟩
      simp [convertChildren, hn, bind, Except.bind]

/-- **Conversion finds the first fault.** A layout in which nothing is at fault is converted, and of
every other layout the first fault is reported.

**Proof sketch.** Induction on the layout. Commands are never at fault, groups without children and
invalid nodes are so themselves, and a group with children has the faults of its children, of which
the one found first in the row is the first (`FirstFault.group`). -/
theorem diagnosed (n : Node) (place : Path) (reg : Registry) : n.Diagnosed place reg := by
  induction n using induct generalizing place reg with
  | command text =>
    refine .inl ⟨_, by rw [convert], fun path => ?_⟩
    cases path <;> rfl
  | invalid value => exact .inr ⟨[], _, by rw [convert], .root (by simp [fault?])⟩
  | group children ih =>
    cases hempty : children.isEmpty with
    | true =>
      obtain rfl := List.isEmpty_iff.1 hempty
      exact .inr ⟨[], .emptyGroup place, by simp [convert], .root (by simp [fault?])⟩
    | false =>
      have hne : children ≠ [] := by simpa using hempty
      rcases rowDiagnosed ih place 0 reg with
        ⟨⟨ts, last⟩, hrest, hall⟩ | ⟨k, m, path, fault, hrest, hk, hfirst, hbefore⟩
      · simp only [Nat.zero_add] at hall
        refine .inl ⟨(.group ts, last), ?_, .group hne hall⟩
        simp [convert, hempty, hrest, bind, Except.bind, pure, Except.pure]
      · simp only [Nat.zero_add] at hfirst hbefore
        refine .inr ⟨k :: path, fault, ?_, .group hk hfirst hbefore⟩
        simp [convert, hempty, hrest, bind, Except.bind]

end Node

namespace LayoutConfig

variable {config : LayoutConfig} {defaultEntry : String}

/-- The entry mode is the one that is named. -/
theorem entryMode_of_parse {mode : Mode}
    (h : Mode.parse? (config.entry.getD defaultEntry) = some mode) :
    config.entryMode defaultEntry = .ok mode := by
  simp [entryMode, h]

/-- A name that is no mode is reported. -/
theorem entryMode_of_unknown (h : Mode.parse? (config.entry.getD defaultEntry) = none) :
    config.entryMode defaultEntry = .error (.unknownMode (config.entry.getD defaultEntry)) := by
  simp [entryMode, h]

end LayoutConfig

namespace Plan

variable {config : LayoutConfig} {defaultEntry : String}

/-- **Plans and first faults.** If the entry mode is known, there is a plan and nothing in the
layout is at fault, or the first fault of the layout is reported. -/
theorem build_outcome {mode : Mode}
    (h : Mode.parse? (config.entry.getD defaultEntry) = some mode) :
    (∃ plan, build config defaultEntry = .ok plan ∧ plan.entry = mode ∧
      config.layout.Faultless []) ∨
    ∃ path fault, build config defaultEntry = .error fault ∧
      config.layout.FirstFault [] path fault := by
  have hentry := LayoutConfig.entryMode_of_parse h
  rcases config.layout.diagnosed [] .empty with
    ⟨⟨t, panes⟩, hconvert, hsound⟩ | ⟨path, fault, hconvert, hfirst⟩
  · have hcompile : t.compile mode true = .ok (t.script mode true) :=
      Tree.compileAt_eq_script (Node.convert_eq hconvert).1 mode true []
    refine .inl ⟨⟨mode, panes, t.script mode true⟩, ?_, rfl, hsound⟩
    simp [build, hentry, hconvert, hcompile, bind, Except.bind, pure, Except.pure]
  · refine .inr ⟨path, fault, ?_, hfirst⟩
    simp [build, hentry, hconvert, bind, Except.bind]

/-- If the entry mode is not known, its name is reported, whatever the layout. -/
theorem build_of_unknown (h : Mode.parse? (config.entry.getD defaultEntry) = none) :
    build config defaultEntry = .error (.unknownMode (config.entry.getD defaultEntry)) := by
  simp [build, LayoutConfig.entryMode_of_unknown h, bind, Except.bind]

/-- **There is a plan** exactly if the name of the entry mode is known and the layout is sound. -/
theorem build_ok_iff : (∃ plan, build config defaultEntry = .ok plan) ↔
    Mode.parse? (config.entry.getD defaultEntry) ≠ none ∧
      ∀ path, config.layout.SoundAt path := by
  cases hmode : Mode.parse? (config.entry.getD defaultEntry) with
  | none => simp [build_of_unknown hmode]
  | some mode =>
    rcases build_outcome hmode with ⟨plan, hplan, -, hsound⟩ | ⟨path, fault, hfault, hfirst⟩
    · have hall : ∀ path, config.layout.SoundAt path := fun path =>
        Node.faultAt?_eq_none_iff.1 (hsound path)
      exact iff_of_true ⟨plan, hplan⟩ ⟨by simp, hall⟩
    · refine iff_of_false (by simp [hfault]) fun hboth => ?_
      have hnone : config.layout.faultAt? [] path = none :=
        Node.faultAt?_eq_none_iff.2 (hboth.2 path)
      rw [hfirst.here] at hnone
      exact absurd hnone (by simp)

/-- **Which fault is reported**, if the entry mode is known: the first one of the layout. -/
theorem build_error_iff {mode : Mode} {fault : LayoutFault}
    (h : Mode.parse? (config.entry.getD defaultEntry) = some mode) :
    build config defaultEntry = .error fault ↔
      ∃ path, config.layout.FirstFault [] path fault := by
  rcases build_outcome h with ⟨plan, hplan, -, hsound⟩ | ⟨path, found, hfault, hfirst⟩
  · have hnone : ¬ ∃ path, config.layout.FirstFault [] path fault := fun ⟨path, hfirst⟩ =>
      absurd ((hsound path).symm.trans hfirst.here) (by simp)
    simp [hplan, hnone]
  · rw [hfault, Except.error.injEq]
    constructor
    · rintro rfl
      exact ⟨path, hfirst⟩
    · rintro ⟨path', hfirst'⟩
      exact (hfirst.unique hfirst').2

/-- The mode of a plan is the one that is named. -/
theorem entry_of_build {plan : Plan} (h : build config defaultEntry = .ok plan) :
    Mode.parse? (config.entry.getD defaultEntry) = some plan.entry := by
  cases hmode : Mode.parse? (config.entry.getD defaultEntry) with
  | none => simp [build_of_unknown hmode] at h
  | some mode =>
    rcases build_outcome hmode with ⟨plan', hplan, hentry, -⟩ | ⟨path, fault, hfault, -⟩
    · obtain rfl : plan' = plan := Except.ok.inj (hplan.symm.trans h)
      rw [hentry]
    · rw [hfault] at h
      exact absurd h (by simp)

/-- Every instruction of a plan is about one of its panes. -/
theorem pane_lt_size {plan : Plan} (h : build config defaultEntry = .ok plan) {i : Instruction}
    (hi : i ∈ plan.queue) : i.pane < plan.panes.size := by
  obtain ⟨t, hfilled, -, hpanes, hqueue, -⟩ := exists_tree h
  rw [hqueue] at hi
  have hpane := Tree.pane_mem_of_mem_script hfilled hi
  rw [hpanes] at hpane
  exact List.mem_range.1 hpane

/-- **Plans and diagnoses.** A configuration has a plan exactly if the name of its entry mode is
known and there is neither an empty group nor an invalid node anywhere in its layout. If the name is
not known, it is reported, whatever the layout. Otherwise the first fault in reading order is
reported: an empty group, or an invalid node with the text of its value, and the place that is shown
can be read back and leads to that node. What has been converted always compiles, and the
instructions of a plan are about its own panes.

**Proof sketch.** `build_outcome` says what is built or reported, and a layout has one first fault
(`Node.FirstFault.unique`). What has been converted has no empty group (`Node.convert_eq`), so it
compiles to its script, whose instructions are about its own panes. -/
theorem build_diagnosis (config : LayoutConfig) (defaultEntry : String) :
    ((∃ plan, build config defaultEntry = .ok plan) ↔
      Mode.parse? (config.entry.getD defaultEntry) ≠ none ∧
        ∀ path, config.layout.SoundAt path) ∧
    (Mode.parse? (config.entry.getD defaultEntry) = none →
      build config defaultEntry = .error (.unknownMode (config.entry.getD defaultEntry))) ∧
    (Mode.parse? (config.entry.getD defaultEntry) ≠ none →
      ∀ fault, build config defaultEntry = .error fault ↔
        ∃ path,
          ((config.layout.get? path = some (.group []) ∧ fault = .emptyGroup path) ∨
            ∃ value, config.layout.get? path = some (.invalid value) ∧
              fault = .malformedNode path value) ∧
          ∀ earlier < path, config.layout.SoundAt earlier) ∧
    (∀ path : Path, Path.ofText? path.text = some path ∧
      (LayoutFault.emptyGroup path).message = "Empty layout group at '" ++ path.text ++ "'" ∧
      ∀ value, (LayoutFault.malformedNode path value).message =
        "Malformed layout node at '" ++ path.text ++
          "': expected a command or a list, found " ++ value.render) ∧
    (∀ place reg t reg', config.layout.convert place reg = .ok (t, reg') →
      ∀ mode isRoot, ∃ queue, t.compile mode isRoot = .ok queue) ∧
    ∀ plan, build config defaultEntry = .ok plan →
      Mode.parse? (config.entry.getD defaultEntry) = some plan.entry ∧
        ∀ i ∈ plan.queue, i.pane < plan.panes.size := by
  refine ⟨build_ok_iff, build_of_unknown, fun h fault => ?_,
    fun path => ⟨path.ofText?_text, ?_, ?_⟩, fun place reg t reg' hconvert mode isRoot => ?_,
    fun plan hplan => ?_⟩
  · obtain ⟨mode, hmode⟩ := Option.ne_none_iff_exists'.1 h
    rw [build_error_iff hmode]
    simp only [Node.firstFault_root_iff]
  · rfl
  · exact fun _ => rfl
  · have hfilled := (Node.convert_eq hconvert).1
    exact ⟨_, Tree.compileAt_eq_script hfilled mode isRoot []⟩
  · exact ⟨entry_of_build hplan, fun i hi => pane_lt_size hplan hi⟩

/-- Of two faults below the second child, the one further left is reported. -/
example : build ⟨.group [.command "vim", .group [.group [], .invalid .null]], none⟩ "tab" =
    .error (.emptyGroup [1, 0]) := rfl

end Plan

end PaneLayout
