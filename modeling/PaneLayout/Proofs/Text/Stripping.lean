import Mathlib.Data.List.Infix
import Mathlib.Data.List.TakeWhile
import PaneLayout.Text.ControlSequence

set_option autoImplicit false

/-!
# What stripping leaves

Control sequences are dropped from left to right, and each one is made as long as it can be. Whether
something is dropped may therefore depend on what comes later. This file says where that ends: at
the start of a text that no control sequence runs into.

## Main definitions

* `PaneLayout.Text.Barrier` — texts into which no control sequence runs.

## Main results

* `PaneLayout.Text.controlSequence?_eq_some` — the shape of a control sequence that is found.
* `PaneLayout.Text.controlSequence?_append` — a barrier does not change what is found before it.
* `PaneLayout.Text.strip_append` — stripping on the two sides of a barrier.
-/

namespace PaneLayout.Text

/-! ### Characters -/

/-- A digit may end a control sequence. -/
theorem isFinal_of_isDigit {c : Char} (h : c.isDigit = true) : isFinal c = true := by
  simp [isFinal, h]

/-- No character may stand both in the middle and at the end of a control sequence. -/
theorem isFinal_of_isIntermediate {c : Char} (h : isIntermediate c = true) : isFinal c = false := by
  simp only [isIntermediate, Bool.or_eq_true, beq_iff_eq] at h
  rcases h with ((((rfl | rfl) | rfl) | rfl) | rfl) | rfl <;> rfl

/-- An introducer stands at the beginning of a control sequence only. -/
theorem isIntermediate_of_isIntroducer {c : Char} (h : isIntroducer c = true) :
    isIntermediate c = false ∧ isFinal c = false := by
  simp only [isIntroducer, Bool.or_eq_true, beq_iff_eq] at h
  rcases h with rfl | rfl <;> exact ⟨rfl, rfl⟩

/-- What is neither a control character nor U+009B is no introducer. -/
theorem not_isIntroducer {c : Char} (hlow : 0x20 ≤ c.toNat) (hne : c ≠ '\u009b') :
    isIntroducer c = false := by
  by_contra h
  simp only [isIntroducer, Bool.not_eq_false, Bool.or_eq_true, beq_iff_eq] at h
  rcases h with rfl | rfl
  · exact absurd hlow (by decide)
  · exact hne rfl

/-! ### Barriers -/

/-- **Barriers.** A control sequence that begins before such a text ends before it: its parameters
do not go on there, and behind the intermediate characters at its start no final character follows.
-/
structure Barrier (s : List Char) : Prop where
  head_ne : ∀ c ∈ s.head?, c ≠ ';'
  stops : ∀ c ∈ (s.dropWhile isIntermediate).head?, isFinal c = false

namespace Barrier

variable {s : List Char}

/-- No final character stands at the start of a barrier. -/
theorem isFinal_head (h : Barrier s) : ∀ c ∈ s.head?, isFinal c = false := by
  intro c hc
  cases s with
  | nil => simp at hc
  | cons d s =>
    obtain rfl : d = c := by simpa using hc
    by_cases hd : isIntermediate d = true
    · exact isFinal_of_isIntermediate hd
    · exact h.stops d (by simp [hd])

/-- No digit stands at the start of a barrier. -/
theorem isDigit_head (h : Barrier s) : ∀ c ∈ s.head?, c.isDigit = false := by
  intro c hc
  have hfinal := h.isFinal_head c hc
  by_contra hdigit
  rw [isFinal_of_isDigit (by simpa using hdigit)] at hfinal
  exact absurd hfinal (by decide)

/-- A text is a barrier if it begins with a character that can only begin a control sequence, or
that has no place in one. -/
theorem of_head {c : Char} (hmiddle : isIntermediate c = false) (hfinal : isFinal c = false) :
    Barrier (c :: s) := by
  constructor
  · intro d hd
    obtain rfl : c = d := by simpa using hd
    rintro rfl
    exact absurd hmiddle (by decide)
  · intro d hd
    obtain rfl : c = d := by simpa [hmiddle] using hd
    exact hfinal

/-- An intermediate character other than the semicolon may stand before a barrier. -/
theorem cons (h : Barrier s) {c : Char} (hmiddle : isIntermediate c = true) (hne : c ≠ ';') :
    Barrier (c :: s) := by
  constructor
  · intro d hd
    obtain rfl : c = d := by simpa using hd
    exact hne
  · rw [List.dropWhile_cons_of_pos hmiddle]
    exact h.stops

end Barrier

/-! ### Parameters -/

/-- The parameters are the beginning of the text. -/
theorem parameterRun_isPrefix (room : Nat) (s : List Char) : parameterRun room s <+: s := by
  induction s generalizing room with
  | nil => simp [parameterRun]
  | cons c s ih =>
    cases room with
    | zero =>
      rw [parameterRun]
      split
      · exact List.cons_prefix_cons.2 ⟨rfl, ih 4⟩
      · exact List.nil_prefix
    | succ room =>
      rw [parameterRun]
      split
      · exact List.cons_prefix_cons.2 ⟨rfl, ih 4⟩
      · split
        · exact List.cons_prefix_cons.2 ⟨rfl, ih room⟩
        · exact List.nil_prefix

/-- Only semicolons and digits are parameters. -/
theorem mem_parameterRun {room : Nat} {s : List Char} {c : Char} (h : c ∈ parameterRun room s) :
    c = ';' ∨ c.isDigit = true := by
  induction s generalizing room with
  | nil => simp [parameterRun] at h
  | cons d s ih =>
    by_cases hd : d = ';'
    · have hc : c = d ∨ c ∈ parameterRun 4 s := by cases room <;> simpa [parameterRun, hd] using h
      rcases hc with rfl | hc
      · exact .inl hd
      · exact ih hc
    · obtain ⟨room, hdigit, hc⟩ : ∃ n, d.isDigit = true ∧ (c = d ∨ c ∈ parameterRun n s) := by
        cases room with
        | zero => simp [parameterRun, hd] at h
        | succ room =>
          rw [parameterRun, if_neg hd] at h
          split at h
          case isFalse => simp at h
          case isTrue hdigit => exact ⟨room, hdigit, by simpa using h⟩
      rcases hc with rfl | hc
      · exact .inr hdigit
      · exact ih hc

/-- The parameters end where neither a semicolon nor a digit follows. -/
theorem parameterRun_append {s : List Char} (hne : ∀ c ∈ s.head?, c ≠ ';')
    (hdigit : ∀ c ∈ s.head?, c.isDigit = false) (room : Nat) (q : List Char) :
    parameterRun room (q ++ s) = parameterRun room q := by
  induction q generalizing room with
  | nil =>
    cases s with
    | nil => rfl
    | cons c s =>
      have hc := hne c rfl
      have hd := hdigit c rfl
      cases room <;> simp [parameterRun, hc, hd]
  | cons d q ih =>
    cases room <;> simp [parameterRun, ih]

/-- The parameters of a text are its beginning. -/
theorem parameters_isPrefix (s : List Char) : parameters s <+: s := by
  cases s with
  | nil => simp [parameters]
  | cons c s =>
    rw [parameters]
    split
    · exact parameterRun_isPrefix 4 (c :: s)
    · exact List.nil_prefix

/-- Only semicolons and digits are parameters of a text. -/
theorem mem_parameters {s : List Char} {c : Char} (h : c ∈ parameters s) :
    c = ';' ∨ c.isDigit = true := by
  cases s with
  | nil => simp [parameters] at h
  | cons d s =>
    rw [parameters] at h
    split at h
    · exact mem_parameterRun h
    · simp at h

/-- The parameters of a text end where neither a semicolon nor a digit follows. -/
theorem parameters_append {s : List Char} (hne : ∀ c ∈ s.head?, c ≠ ';')
    (hdigit : ∀ c ∈ s.head?, c.isDigit = false) (q : List Char) :
    parameters (q ++ s) = parameters q := by
  cases q with
  | nil =>
    cases s with
    | nil => rfl
    | cons c s =>
      have hc : c.isDigit = false := hdigit c rfl
      simp [parameters, hc]
  | cons d q =>
    have hrun := parameterRun_append hne hdigit 4 (d :: q)
    rw [List.cons_append] at hrun
    rw [List.cons_append, parameters, parameters, hrun]

/-! ### What follows the intermediate characters -/

/-- A text without a final character at its start is no ending. -/
theorem ending?_eq_none {s : List Char} (h : ∀ c ∈ s.head?, isFinal c = false) :
    ending? s = none := by
  cases s with
  | nil => rfl
  | cons c s =>
    have hc := h c rfl
    have hdigit : c.isDigit = false := by
      by_contra hd
      rw [isFinal_of_isDigit (by simpa using hd)] at hc
      exact absurd hc (by decide)
    simp [ending?, parameters, hdigit, hc, ending?.lastDigit?]

/-- An ending is the beginning of the text behind the intermediate characters. -/
theorem ending?_eq_some {s tail : List Char} (h : ending? s = some tail) :
    tail <+: s ∧ ∀ c ∈ tail, isIntermediate c = true ∨ isFinal c = true := by
  have hrun := parameters_isPrefix s
  have hmem : ∀ c ∈ parameters s, isIntermediate c = true ∨ isFinal c = true := by
    intro c hc
    rcases mem_parameters hc with rfl | hdigit
    · exact .inl rfl
    · exact .inr (isFinal_of_isDigit hdigit)
  have hlast : ending?.lastDigit? (parameters s) = some tail →
      tail <+: s ∧ ∀ c ∈ tail, isIntermediate c = true ∨ isFinal c = true := by
    intro hlast
    rw [ending?.lastDigit?] at hlast
    split at hlast
    case isTrue => simp at hlast
    case isFalse =>
      have hdrop : (parameters s).reverse.dropWhile (· == ';') <:+ (parameters s).reverse :=
        List.dropWhile_suffix _
      have htail : tail <+: parameters s := by
        rw [← Option.some.inj hlast, ← List.reverse_suffix, List.reverse_reverse]
        exact hdrop
      exact ⟨htail.trans hrun, fun c hc => hmem c (htail.subset hc)⟩
  rw [ending?] at h
  split at h
  case h_2 => exact hlast h
  case h_1 c rest hrest =>
    split at h
    case isFalse => exact hlast h
    case isTrue hc =>
      obtain rfl : parameters s ++ [c] = tail := by simpa using h
      have hsplit : parameters s ++ c :: rest = s := by
        rw [← hrest]
        exact (List.prefix_append_drop hrun).symm
      refine ⟨⟨rest, by rw [List.append_assoc]; exact hsplit⟩, ?_⟩
      intro d hd
      rcases List.mem_append.1 hd with hd | hd
      · exact hmem d hd
      · obtain rfl : d = c := by simpa using hd
        exact .inr hc

/-- A barrier behind a text does not change its ending. -/
theorem ending?_append {s : List Char} (h : Barrier s) (q : List Char) :
    ending? (q ++ s) = ending? q := by
  have hparameters := parameters_append h.head_ne h.isDigit_head q
  have hlength := (parameters_isPrefix q).length_le
  rw [ending?, ending?, hparameters, List.drop_append_of_le_length hlength]
  cases hq : q.drop (parameters q).length with
  | cons c rest => rfl
  | nil =>
    cases s with
    | nil => rfl
    | cons c s => simp [h.isFinal_head c rfl]

/-! ### Control sequences -/

/-- **The shape of a control sequence** that is found: an introducer and some of what follows, all
of which may stand in the middle or at the end. -/
theorem controlSequence?_eq_some {c : Char} {s word : List Char}
    (h : controlSequence? (c :: s) = some word) :
    ∃ body, word = c :: body ∧ body <+: s ∧ isIntroducer c = true ∧
      ∀ d ∈ body, isIntermediate d = true ∨ isFinal d = true := by
  rw [controlSequence?] at h
  split at h
  case isFalse => simp at h
  case isTrue hc =>
    obtain ⟨tail, htail, rfl⟩ := Option.map_eq_some_iff.1 h
    obtain ⟨⟨rest, hrest⟩, hmem⟩ := ending?_eq_some htail
    refine ⟨s.takeWhile isIntermediate ++ tail, rfl, ⟨rest, ?_⟩, hc, ?_⟩
    · rw [List.append_assoc, hrest, List.takeWhile_append_dropWhile]
    · intro d hd
      rcases List.mem_append.1 hd with hd | hd
      · exact .inl (List.mem_takeWhile_imp hd)
      · exact hmem d hd

/-- Only an introducer begins a control sequence. -/
theorem controlSequence?_eq_none {c : Char} (h : isIntroducer c = false) (s : List Char) :
    controlSequence? (c :: s) = none := by
  simp [controlSequence?, h]

/-- A barrier does not change the control sequence that begins before it. -/
theorem controlSequence?_append {s : List Char} (h : Barrier s) (c : Char) (p : List Char) :
    controlSequence? (c :: (p ++ s)) = controlSequence? (c :: p) := by
  have hnone : ending? (s.dropWhile isIntermediate) = none := ending?_eq_none h.stops
  rw [controlSequence?, controlSequence?]
  by_cases hall : ∀ d ∈ p, isIntermediate d = true
  · have hdrop : p.dropWhile isIntermediate = [] := List.dropWhile_eq_nil_iff.2 hall
    have hrest : (p ++ s).dropWhile isIntermediate = s.dropWhile isIntermediate :=
      List.dropWhile_append_of_pos hall
    have hnil : ending? ([] : List Char) = none := rfl
    simp only [hdrop, hrest, hnone, hnil, Option.map_none]
  · have hne : ¬ (p.dropWhile isIntermediate).isEmpty := by
      rw [List.isEmpty_iff, List.dropWhile_eq_nil_iff]
      exact hall
    have hlt : (p.takeWhile isIntermediate).length ≠ p.length := by
      intro heq
      have hsame := (List.takeWhile_prefix (p := isIntermediate) (l := p)).eq_of_length heq
      exact hall (List.takeWhile_eq_self_iff.1 hsame)
    have hdrop : (p ++ s).dropWhile isIntermediate = p.dropWhile isIntermediate ++ s := by
      rw [List.dropWhile_append, if_neg hne]
    have htake : (p ++ s).takeWhile isIntermediate = p.takeWhile isIntermediate := by
      rw [List.takeWhile_append, if_neg hlt]
    simp only [hdrop, htake, ending?_append h]

/-! ### Stripping -/

/-- What is pending is dropped. -/
theorem stripFrom_length_append (x t : List Char) : stripFrom x.length (x ++ t) = strip t := by
  induction x with
  | nil => rfl
  | cons c x ih => rw [List.length_cons, List.cons_append, stripFrom, ih]

/-- A control sequence at the start of a text is dropped. -/
theorem strip_of_controlSequence? {c : Char} {body t : List Char}
    (h : controlSequence? (c :: (body ++ t)) = some (c :: body)) :
    strip (c :: (body ++ t)) = strip t := by
  rw [strip, stripFrom, h]
  simp [stripFrom_length_append]

/-- A character that does not begin a control sequence is kept. -/
theorem strip_cons {c : Char} {s : List Char} (h : controlSequence? (c :: s) = none) :
    strip (c :: s) = c :: strip s := by
  rw [strip, stripFrom, h, strip]

/-- A text without introducers is kept, whatever follows it. -/
theorem strip_append_of_forall {x : List Char} (h : ∀ c ∈ x, isIntroducer c = false)
    (t : List Char) : strip (x ++ t) = x ++ strip t := by
  induction x with
  | nil => rfl
  | cons c x ih =>
    have hc := h c (by simp)
    have hx := ih fun d hd => h d (by simp [hd])
    rw [List.cons_append, strip_cons (controlSequence?_eq_none hc _), hx, List.cons_append]

/-- Stripping drops characters and does nothing else. -/
theorem strip_sublist (s : List Char) : (strip s).Sublist s := by
  have hfrom : ∀ (n : Nat) (s : List Char), (stripFrom n s).Sublist s := by
    intro n s
    induction s generalizing n with
    | nil => cases n <;> exact List.nil_sublist _
    | cons c s ih =>
      cases n with
      | succ n => exact (ih n).cons c
      | zero =>
        rw [stripFrom]
        split
        · exact (ih _).cons c
        · exact (ih 0).cons_cons c
  exact hfrom 0 s

/-- **Stripping at a barrier.** The two sides of it are stripped by themselves.

**Proof sketch.** Induction on the text before the barrier. What is pending never exceeds it, since
a control sequence that begins there ends there. -/
theorem strip_append {s : List Char} (h : Barrier s) (p : List Char) :
    strip (p ++ s) = strip p ++ strip s := by
  have hfrom : ∀ p : List Char, ∀ n ≤ p.length,
      stripFrom n (p ++ s) = stripFrom n p ++ strip s := by
    intro p
    induction p with
    | nil =>
      intro n hn
      obtain rfl : n = 0 := by simpa using hn
      rfl
    | cons c p ih =>
      intro n hn
      cases n with
      | succ n => exact ih n (by simpa using hn)
      | zero =>
        rw [List.cons_append, stripFrom, stripFrom, controlSequence?_append h]
        cases hword : controlSequence? (c :: p) with
        | none => simp only [ih 0 (Nat.zero_le _), List.cons_append]
        | some word =>
          obtain ⟨body, rfl, hbody, -, -⟩ := controlSequence?_eq_some hword
          exact ih _ (by simpa using hbody.length_le)
  exact hfrom p 0 (Nat.zero_le _)

/-- A closing brace is a barrier that is kept. -/
theorem strip_append_brace (s t : List Char) :
    strip (s ++ '}' :: t) = strip s ++ '}' :: strip t := by
  rw [strip_append (.of_head rfl rfl), strip_cons (controlSequence?_eq_none rfl t)]

end PaneLayout.Text
