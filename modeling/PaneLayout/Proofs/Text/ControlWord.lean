import Mathlib.Data.List.DropRight
import PaneLayout.Proofs.Text.Stripping

set_option autoImplicit false

/-!
# The words that are control sequences

The scanner takes as much as it can, and if no final character follows the parameters, it takes
their last digit for one. What it finds is always a word of the grammar of control sequences.
Conversely, a word of the grammar is found as it is, whatever follows it, unless it ends with a
digit: that might be a parameter of a longer one.

## Main definitions

* `PaneLayout.Text.IsParameters` — lists of parameters.
* `PaneLayout.Text.ControlWord` — the grammar.

## Main results

* `PaneLayout.Text.controlWord_of_controlSequence?` — what is found is a control word.
* `PaneLayout.Text.controlSequence?_word` — a control word is found, whatever follows it.
* `PaneLayout.Text.strip_word_append` — a control word is dropped and nothing else.
-/

namespace PaneLayout.Text

/-! ### The grammar -/

/-- At most four digits. -/
def IsNumber (s : List Char) : Prop := s.length ≤ 4 ∧ ∀ c ∈ s, c.isDigit = true

/-- A number without its last digit is a number. -/
theorem IsNumber.of_concat {s : List Char} {c : Char} (h : IsNumber (s ++ [c])) :
    IsNumber s ∧ c.isDigit = true := by
  obtain ⟨hlength, hdigits⟩ := h
  rw [List.length_append, List.length_singleton] at hlength
  exact ⟨⟨by omega, fun d hd => hdigits d (by simp [hd])⟩, hdigits c (by simp)⟩

/-- Parameters, if there are any: a number that is not empty, and groups of a semicolon and a number
that may be empty. -/
def IsParameters (s : List Char) : Prop :=
  s = [] ∨ ∃ (number : List Char) (groups : List (List Char)), number ≠ [] ∧ IsNumber number ∧
    (∀ g ∈ groups, IsNumber g) ∧ s = number ++ groups.flatMap (';' :: ·)

/-- **Control words.** An introducer, intermediate characters, parameters and a final character. -/
inductive ControlWord : List Char → Prop where
  | intro {introducer final : Char} {middle params : List Char}
    (begins : isIntroducer introducer = true) (middles : ∀ c ∈ middle, isIntermediate c = true)
    (numbers : IsParameters params) (ends : isFinal final = true) :
    ControlWord (introducer :: (middle ++ (params ++ [final])))

/-! ### What is found -/

/-- Parameters are a number for which there is room, and groups. -/
theorem exists_parameterRun_eq {room : Nat} (hroom : room ≤ 4) (s : List Char) :
    ∃ (number : List Char) (groups : List (List Char)),
      parameterRun room s = number ++ groups.flatMap (';' :: ·) ∧
        (number.length ≤ room ∧ ∀ c ∈ number, c.isDigit = true) ∧ ∀ g ∈ groups, IsNumber g := by
  induction s generalizing room with
  | nil => exact ⟨[], [], by simp [parameterRun], ⟨by simp, by simp⟩, by simp⟩
  | cons c s ih =>
    by_cases hc : c = ';'
    · obtain ⟨number, groups, hrun, ⟨hlength, hdigits⟩, hgroups⟩ := ih (Nat.le_refl 4)
      refine ⟨[], number :: groups, ?_, ⟨by simp, by simp⟩, ?_⟩
      · cases room <;> simp [parameterRun, hc, hrun]
      · exact List.forall_mem_cons.2 ⟨⟨hlength, hdigits⟩, hgroups⟩
    · have hstop : parameterRun 0 (c :: s) = [] := by simp [parameterRun, hc]
      cases room with
      | zero => exact ⟨[], [], by simpa using hstop, ⟨by simp, by simp⟩, by simp⟩
      | succ room =>
        by_cases hdigit : c.isDigit = true
        · obtain ⟨number, groups, hrun, ⟨hlength, hdigits⟩, hgroups⟩ := ih (Nat.le_of_succ_le hroom)
          refine ⟨c :: number, groups, by simp [parameterRun, hc, hdigit, hrun], ⟨?_, ?_⟩, hgroups⟩
          · simpa using hlength
          · exact List.forall_mem_cons.2 ⟨hdigit, hdigits⟩
        · exact ⟨[], [], by simp [parameterRun, hc, hdigit], ⟨by simp, by simp⟩, by simp⟩

/-- What is taken for the parameters of a text has the form of parameters. -/
theorem isParameters_parameters (s : List Char) : IsParameters (parameters s) := by
  cases s with
  | nil => exact .inl rfl
  | cons c s =>
    rw [parameters]
    split
    case isFalse => exact .inl rfl
    case isTrue hc =>
      obtain ⟨number, groups, hrun, hnumber, hgroups⟩ :=
        exists_parameterRun_eq (Nat.le_refl 4) (c :: s)
      refine .inr ⟨number, groups, ?_, hnumber, hgroups, hrun⟩
      -- the run begins with a digit, a group with a semicolon
      rintro rfl
      have hne : c ≠ ';' := by
        rintro rfl
        exact absurd hc (by decide)
      cases groups with
      | nil => simp [parameterRun, hne, hc] at hrun
      | cons g groups =>
        simp only [parameterRun, if_neg hne, if_pos hc, List.flatMap_cons, List.nil_append,
          List.cons_append, List.cons.injEq] at hrun
        exact hne hrun.1

/-- No semicolon is dropped behind a digit. -/
theorem rdropWhile_digit {d : Char} (h : d.isDigit = true) (s : List Char) :
    (s ++ [d]).rdropWhile (· == ';') = s ++ [d] := by
  refine List.rdropWhile_concat_neg _ _ _ ?_
  rw [beq_iff_eq]
  rintro rfl
  exact absurd h (by decide)

/-- **The last digit of parameters** leaves parameters in front of it. -/
theorem IsParameters.lastDigit {params tail : List Char} (h : IsParameters params)
    (htail : ending?.lastDigit? params = some tail) :
    ∃ rest digit, tail = rest ++ [digit] ∧ IsParameters rest ∧ digit.isDigit = true := by
  rcases h with rfl | ⟨number, groups, hfirst, hnumber, hgroups, rfl⟩
  · simp [ending?.lastDigit?] at htail
  · obtain rfl : (number ++ groups.flatMap (';' :: ·)).rdropWhile (· == ';') = tail := by
      simpa [ending?.lastDigit?, hfirst, List.rdropWhile] using htail
    clear htail
    -- empty groups at the end are dropped; the digit is the last one of what stands before them
    induction groups using List.reverseRecOn with
    | nil =>
      obtain ⟨init, d, rfl⟩ := (List.eq_nil_or_concat' number).resolve_left hfirst
      obtain ⟨hinit, hd⟩ := hnumber.of_concat
      refine ⟨init, d, ?_, ?_, hd⟩
      · rw [List.flatMap_nil, List.append_nil, rdropWhile_digit hd]
      · by_cases hempty : init = []
        · exact .inl hempty
        · exact .inr ⟨init, [], hempty, hinit, by simp, by simp⟩
    | append_singleton groups g ih =>
      obtain ⟨hbefore, hg⟩ := List.forall_mem_append.1 hgroups
      have hlast : IsNumber g := hg g (List.mem_singleton_self g)
      rcases List.eq_nil_or_concat' g with rfl | ⟨init, d, rfl⟩
      · rw [List.flatMap_append, List.flatMap_singleton, ← List.append_assoc,
          List.rdropWhile_concat_pos _ _ _ rfl]
        exact ih hbefore
      · obtain ⟨hinit, hd⟩ := hlast.of_concat
        have hrun : number ++ (groups ++ [init ++ [d]]).flatMap (';' :: ·) =
            number ++ (groups ++ [init]).flatMap (';' :: ·) ++ [d] := by simp
        refine ⟨_, d, by rw [hrun, rdropWhile_digit hd], ?_, hd⟩
        refine .inr ⟨number, groups ++ [init], hfirst, hnumber, ?_, rfl⟩
        exact List.forall_mem_append.2 ⟨hbefore, by simpa using hinit⟩

/-- **What is found is a control word.** -/
theorem controlWord_of_controlSequence? {s word : List Char} (h : controlSequence? s = some word) :
    ControlWord word := by
  cases s with
  | nil => simp [controlSequence?] at h
  | cons c s =>
    rw [controlSequence?] at h
    split at h
    case isFalse => simp at h
    case isTrue hc =>
      obtain ⟨tail, htail, rfl⟩ := Option.map_eq_some_iff.1 h
      have hmiddle : ∀ d ∈ s.takeWhile isIntermediate, isIntermediate d = true :=
        fun d hd => List.mem_takeWhile_imp hd
      have hparameters := isParameters_parameters (s.dropWhile isIntermediate)
      have hlast : ending?.lastDigit? (parameters (s.dropWhile isIntermediate)) = some tail →
          ControlWord (c :: (s.takeWhile isIntermediate ++ tail)) := by
        intro hlast
        obtain ⟨rest, d, rfl, hrest, hd⟩ := hparameters.lastDigit hlast
        exact .intro hc hmiddle hrest (isFinal_of_isDigit hd)
      rw [ending?] at htail
      split at htail
      case h_2 => exact hlast htail
      case h_1 d rest hrest =>
        split at htail
        case isFalse => exact hlast htail
        case isTrue hd =>
          obtain rfl := Option.some.inj htail
          exact .intro hc hmiddle hparameters hd

/-! ### Words that are found and dropped -/

/-- A number that fits is taken as a whole. -/
theorem parameterRun_number {number : List Char} (h : ∀ c ∈ number, c.isDigit = true)
    {room : Nat} (hroom : number.length ≤ room) (t : List Char) :
    parameterRun room (number ++ t) = number ++ parameterRun (room - number.length) t := by
  induction number generalizing room with
  | nil => rfl
  | cons c number ih =>
    obtain ⟨room, rfl⟩ : ∃ n, room = n + 1 := ⟨room - 1, by simp at hroom; omega⟩
    have hc : c.isDigit = true := h c (by simp)
    have hne : c ≠ ';' := by
      rintro rfl
      exact absurd hc (by decide)
    have hrest := ih (fun d hd => h d (by simp [hd])) (Nat.succ_le_succ_iff.1 hroom)
    simp [parameterRun, hne, hc, hrest]

/-- Groups are taken as a whole, up to what is neither a semicolon nor a digit. -/
theorem parameterRun_groups {groups : List (List Char)} (h : ∀ g ∈ groups, IsNumber g) {c : Char}
    (hne : c ≠ ';') (hdigit : c.isDigit = false) (room : Nat) (t : List Char) :
    parameterRun room (groups.flatMap (';' :: ·) ++ c :: t) = groups.flatMap (';' :: ·) := by
  induction groups generalizing room with
  | nil => cases room <;> simp [parameterRun, hne, hdigit]
  | cons g groups ih =>
    obtain ⟨hlength, hdigits⟩ := h g (by simp)
    have hrest := ih fun g' hg' => h g' (by simp [hg'])
    simp [parameterRun, parameterRun_number hdigits hlength, hrest]

/-- The parameters in front of a final character that is no digit are found. -/
theorem parameters_word {params : List Char} (h : IsParameters params) {c : Char}
    (hfinal : isFinal c = true) (hdigit : c.isDigit = false) (t : List Char) :
    parameters (params ++ c :: t) = params := by
  have hne : c ≠ ';' := by
    rintro rfl
    exact absurd hfinal (by decide)
  rcases h with rfl | ⟨number, groups, hfirst, ⟨hlength, hdigits⟩, hgroups, rfl⟩
  · simp [parameters, hdigit]
  · have hrun : parameterRun 4 (number ++ groups.flatMap (';' :: ·) ++ c :: t) =
        number ++ groups.flatMap (';' :: ·) := by
      rw [List.append_assoc, parameterRun_number hdigits hlength,
        parameterRun_groups hgroups hne hdigit]
    cases number with
    | nil => exact absurd rfl hfirst
    | cons d number =>
      have hd : d.isDigit = true := hdigits d (by simp)
      rw [List.cons_append, List.cons_append, parameters, if_pos hd]
      exact hrun

/-- **The middle of a control word ends where its parameters begin,** and what the scanner finds is
decided behind it: parameters begin with a digit, and the final character is no intermediate one. -/
theorem controlSequence?_of_parts {introducer final : Char} {middle params : List Char}
    (hbegins : isIntroducer introducer = true) (hmiddles : ∀ c ∈ middle, isIntermediate c = true)
    (hnumbers : IsParameters params) (hends : isFinal final = true) (t : List Char) :
    controlSequence? (introducer :: (middle ++ (params ++ final :: t))) =
      (ending? (params ++ final :: t)).map fun tail => introducer :: (middle ++ tail) := by
  have hhead : ∀ c ∈ (params ++ final :: t).head?, isIntermediate c = false := by
    intro c hc
    have hfinal : isFinal c = true := by
      rcases hnumbers with rfl | ⟨number, groups, hfirst, ⟨-, hdigits⟩, -, rfl⟩
      · obtain rfl : final = c := by simpa using hc
        exact hends
      · cases number with
        | nil => exact absurd rfl hfirst
        | cons d number =>
          obtain rfl : d = c := by simpa using hc
          exact isFinal_of_isDigit (hdigits d (by simp))
    by_contra hmiddle
    rw [isFinal_of_isIntermediate (by simpa using hmiddle)] at hfinal
    exact absurd hfinal (by decide)
  have hstop : (params ++ final :: t).dropWhile isIntermediate = params ++ final :: t ∧
      (params ++ final :: t).takeWhile isIntermediate = [] := by
    cases hs : params ++ final :: t with
    | nil => simp at hs
    | cons c s =>
      have hc := hhead c (by rw [hs]; rfl)
      simp [hc]
  have hdrop : (middle ++ (params ++ final :: t)).dropWhile isIntermediate =
      params ++ final :: t := by
    rw [List.dropWhile_append_of_pos hmiddles, hstop.1]
  have htake : (middle ++ (params ++ final :: t)).takeWhile isIntermediate = middle := by
    rw [List.takeWhile_append_of_pos hmiddles, hstop.2, List.append_nil]
  rw [controlSequence?, if_pos hbegins]
  simp only [hdrop, htake]

/-- **A control word is found**, whatever follows it, if it does not end with a digit. -/
theorem controlSequence?_word {word : List Char} (h : ControlWord word)
    (hlast : ∀ c ∈ word.getLast?, c.isDigit = false) (t : List Char) :
    controlSequence? (word ++ t) = some word := by
  obtain @⟨introducer, final, middle, params, hbegins, hmiddles, hnumbers, hends⟩ := h
  have hdigit : final.isDigit = false := hlast final (by simp [List.getLast?_cons])
  have hending : ending? (params ++ final :: t) = some (params ++ [final]) := by
    rw [ending?, parameters_word hnumbers hends hdigit t]
    simp [hends]
  have hassoc : introducer :: (middle ++ (params ++ [final])) ++ t =
      introducer :: (middle ++ (params ++ final :: t)) := by simp
  rw [hassoc, controlSequence?_of_parts hbegins hmiddles hnumbers hends, hending]
  rfl

/-- **A control word is dropped and nothing else**, if it does not end with a digit. -/
theorem strip_word_append {word : List Char} (h : ControlWord word)
    (hlast : ∀ c ∈ word.getLast?, c.isDigit = false) (t : List Char) :
    strip (word ++ t) = strip t := by
  have hfound := controlSequence?_word h hlast t
  cases h with
  | intro => exact strip_of_controlSequence? hfound

end PaneLayout.Text
