import PaneLayout.Proofs.Text.Backtracking
import PaneLayout.Proofs.Text.ControlWord

set_option autoImplicit false

/-!
# Stripping by longest words

A text falls into control words and what stands between them, if at every place the longest control
word that begins there is cut out, from left to right. There is only one way to do this, and what
stands between the words is the stripped text.

## Main definitions

* `PaneLayout.Text.LongestWord` — the longest control word at the start of a text.
* `PaneLayout.Text.Factors` — a text cut into words and what stands between them.
* `PaneLayout.Text.Factors.LeftmostLongest` — the words are the longest ones, and there are no
  others.

## Main results

* `PaneLayout.Text.controlSequence?_eq_some_iff` — the scanner finds the longest word.
* `PaneLayout.Text.LeftmostLongest.unique` — there is only one way to cut a text.
* `PaneLayout.Text.exists_leftmostLongest` — there is one, and stripping keeps what stands between.
* `PaneLayout.Text.strip_keeps_what_stands_between_longest_words` — all of this at once.
-/

namespace PaneLayout.Text

/-! ### Longest words -/

/-- **The longest word.** A control word at the start of a text that is as long as any other one
there. -/
structure LongestWord (word s : List Char) : Prop where
  controlWord : ControlWord word
  begins : word <+: s
  longest : ∀ other, ControlWord other → other <+: s → other.length ≤ word.length

/-- There is only one longest word. -/
theorem LongestWord.unique {word other s : List Char} (h : LongestWord word s)
    (h' : LongestWord other s) : word = other := by
  have hlength := Nat.le_antisymm (h'.longest word h.controlWord h.begins)
    (h.longest other h'.controlWord h'.begins)
  exact (List.prefix_of_prefix_length_le h.begins h'.begins hlength.le).eq_of_length hlength

/-- No word is empty. -/
theorem ControlWord.ne_nil {word : List Char} (h : ControlWord word) : word ≠ [] := by
  cases h
  simp

/-- Groups are taken as a whole, and perhaps more. -/
theorem groups_isPrefix_parameterRun {groups : List (List Char)} (h : ∀ g ∈ groups, IsNumber g)
    (room : Nat) (t : List Char) :
    groups.flatMap (';' :: ·) <+: parameterRun room (groups.flatMap (';' :: ·) ++ t) := by
  induction groups generalizing room with
  | nil => exact List.nil_prefix
  | cons g groups ih =>
    obtain ⟨hlength, hdigits⟩ := h g (by simp)
    have hrun : parameterRun room (';' :: (g ++ (groups.flatMap (';' :: ·) ++ t))) =
        ';' :: (g ++ parameterRun (4 - g.length) (groups.flatMap (';' :: ·) ++ t)) := by
      rw [← parameterRun_number hdigits hlength]
      cases room <;> simp [parameterRun]
    rw [List.flatMap_cons, List.cons_append, List.cons_append, List.append_assoc, hrun]
    have hrest := ih (fun g' hg' => h g' (by simp [hg'])) (4 - g.length)
    exact List.cons_prefix_cons.2 ⟨rfl, (List.prefix_append_right_inj g).2 hrest⟩

/-- **The scanner takes all parameters that there are.** -/
theorem isPrefix_parameters {params : List Char} (h : IsParameters params) (t : List Char) :
    params <+: parameters (params ++ t) := by
  rcases h with rfl | ⟨number, groups, hfirst, ⟨hlength, hdigits⟩, hgroups, rfl⟩
  · exact List.nil_prefix
  · cases number with
    | nil => exact absurd rfl hfirst
    | cons d number =>
      have hd : d.isDigit = true := hdigits d (by simp)
      have hrun : parameters (d :: number ++ groups.flatMap (';' :: ·) ++ t) =
          parameterRun 4 (d :: number ++ (groups.flatMap (';' :: ·) ++ t)) := by
        rw [List.append_assoc, List.cons_append, parameters, if_pos hd]
      rw [hrun, parameterRun_number hdigits hlength]
      exact (List.prefix_append_right_inj _).2 (groups_isPrefix_parameterRun hgroups _ t)

/-- A final character that is taken for a parameter is a digit, and one of the digits that may
still be given up. -/
theorem length_lt_rdropWhile {run rest : List Char} {c : Char} (hc : c.isDigit = true) :
    run.length < ((run ++ c :: rest).rdropWhile (· == ';')).length := by
  have hne : c ≠ ';' := by
    rintro rfl
    exact absurd hc (by decide)
  have hprefix : run ++ [c] <+: (run ++ c :: rest).rdropWhile (· == ';') := by
    induction rest using List.reverseRecOn with
    | nil => rw [rdropWhile_digit hc]
    | append_singleton rest d ih =>
      have hassoc : run ++ c :: (rest ++ [d]) = (run ++ c :: rest) ++ [d] := by simp
      rw [hassoc]
      by_cases hd : d = ';'
      · rw [List.rdropWhile_concat_pos _ _ _ (by simp [hd])]
        exact ih
      · rw [List.rdropWhile_concat_neg _ _ _ (by simp [hd])]
        exact ⟨rest ++ [d], by simp⟩
  have hlength := hprefix.length_le
  rw [List.length_append, List.length_singleton] at hlength
  exact hlength

/-- **No ending is longer** than the one that the scanner finds. -/
theorem exists_ending? {params : List Char} (h : IsParameters params) {c : Char}
    (hc : isFinal c = true) (t : List Char) :
    ∃ tail, ending? (params ++ c :: t) = some tail ∧ params.length < tail.length := by
  obtain ⟨more, hmore⟩ := isPrefix_parameters h (c :: t)
  cases more with
  | nil =>
    refine ⟨params ++ [c], ?_, by simp⟩
    rw [ending?, ← hmore, List.append_nil, List.drop_left]
    simp [hc]
  | cons d more =>
    -- the final character has been taken for a parameter
    have hprefix := parameters_isPrefix (params ++ c :: t)
    rw [← hmore, List.prefix_append_right_inj] at hprefix
    obtain rfl : d = c := (List.cons_prefix_cons.1 hprefix).1
    have hdigit : d.isDigit = true := by
      have hd : d ∈ parameters (params ++ d :: t) := by rw [← hmore]; simp
      rcases mem_parameters hd with rfl | hdigit
      · exact absurd hc (by decide)
      · exact hdigit
    have hlast : ending?.lastDigit? (params ++ d :: more) =
        some ((params ++ d :: more).rdropWhile (· == ';')) := by
      simp [ending?.lastDigit?, List.rdropWhile]
    have hlonger : params.length < ((params ++ d :: more).rdropWhile (· == ';')).length :=
      length_lt_rdropWhile hdigit
    rw [ending?, ← hmore]
    split
    case h_1 e u hrest =>
      split
      · refine ⟨_, rfl, ?_⟩
        simp only [List.length_append, List.length_cons]
        omega
      · exact ⟨_, hlast, hlonger⟩
    case h_2 => exact ⟨_, hlast, hlonger⟩

/-- **No control word is longer** than the one that the scanner finds. -/
theorem exists_controlSequence? {word s : List Char} (h : ControlWord word) (hs : word <+: s) :
    ∃ found, controlSequence? s = some found ∧ word.length ≤ found.length := by
  obtain @⟨introducer, final, middle, params, hbegins, hmiddles, hnumbers, hends⟩ := h
  obtain ⟨t, rfl⟩ := hs
  have hassoc : introducer :: (middle ++ (params ++ [final])) ++ t =
      introducer :: (middle ++ (params ++ final :: t)) := by simp
  obtain ⟨tail, htail, hlength⟩ := exists_ending? hnumbers hends t
  refine ⟨introducer :: (middle ++ tail), ?_, ?_⟩
  · rw [hassoc, controlSequence?_of_parts hbegins hmiddles hnumbers hends, htail]
    rfl
  · simp only [List.length_cons, List.length_append, List.length_nil]
    omega

/-- **The scanner finds the longest word** at the start of a text, if there is any. -/
theorem controlSequence?_eq_some_iff {word s : List Char} :
    controlSequence? s = some word ↔ LongestWord word s := by
  have hfound : ∀ found, controlSequence? s = some found → LongestWord found s := by
    intro found hfound
    have hword := controlWord_of_controlSequence? hfound
    refine ⟨hword, ?_, fun other hother hbegins => ?_⟩
    · cases s with
      | nil => simp [controlSequence?] at hfound
      | cons c s =>
        obtain ⟨body, rfl, hbody, -⟩ := controlSequence?_eq_some hfound
        exact List.cons_prefix_cons.2 ⟨rfl, hbody⟩
    · obtain ⟨longest, hlongest, hlength⟩ := exists_controlSequence? hother hbegins
      obtain rfl := Option.some.inj (hfound.symm.trans hlongest)
      exact hlength
  refine ⟨hfound word, fun h => ?_⟩
  obtain ⟨found, heq, -⟩ := exists_controlSequence? h.controlWord h.begins
  rw [heq, (hfound found heq).unique h]

/-! ### Cutting a text -/

/-- **Factors.** What stands before the first word, and each word with what stands behind it. -/
structure Factors where
  head : List Char
  tail : List (List Char × List Char)

/-- Words with what stands behind them, put together. -/
def joined (tail : List (List Char × List Char)) : List Char := tail.flatMap fun p => p.1 ++ p.2

/-- The text that was cut. -/
def Factors.text (f : Factors) : List Char := f.head ++ joined f.tail

/-- The text without the words. -/
def Factors.kept (f : Factors) : List Char := f.head ++ f.tail.flatMap Prod.snd

/-- **No word begins** at any place of the first part of the text `gap ++ rest`. Words that would
reach into the rest count as well. -/
def Wordless (gap rest : List Char) : Prop :=
  ∀ before after, gap = before ++ after → after ≠ [] → ∀ word,
    ControlWord word → ¬ word <+: after ++ rest

/-- No word begins in what stands before the first word, each word is the longest one at its place,
and no word begins in what stands behind it. -/
def LeftmostLongest : List Char → List (List Char × List Char) → Prop
  | gap, [] => Wordless gap []
  | gap, (word, next) :: tail =>
    Wordless gap (word ++ (next ++ joined tail)) ∧
      LongestWord word (word ++ (next ++ joined tail)) ∧ LeftmostLongest next tail

/-- **Leftmost and longest.** The words that were cut out are the longest ones at their places, and
no word begins at any other place between them. -/
def Factors.LeftmostLongest (f : Factors) : Prop := Text.LeftmostLongest f.head f.tail

@[simp] theorem joined_nil : joined [] = [] := rfl

@[simp] theorem joined_cons (word next : List Char) (tail : List (List Char × List Char)) :
    joined ((word, next) :: tail) = word ++ (next ++ joined tail) := by
  simp [joined]

/-- No word begins in nothing. -/
theorem wordless_nil (rest : List Char) : Wordless [] rest := by
  intro before after h hne
  exact absurd (List.append_eq_nil_iff.1 h.symm).2 hne

/-- No word begins in a first part if none begins at its first character, and none behind it. -/
theorem wordless_cons_iff {c : Char} {gap rest : List Char} :
    Wordless (c :: gap) rest ↔
      (∀ word, ControlWord word → ¬ word <+: c :: (gap ++ rest)) ∧ Wordless gap rest := by
  constructor
  · intro h
    refine ⟨fun word hword => h [] (c :: gap) rfl (by simp) word hword, ?_⟩
    rintro before after rfl hne
    exact h (c :: before) after rfl hne
  · rintro ⟨hfirst, hgap⟩ before after h hne
    cases before with
    | nil =>
      obtain rfl : c :: gap = after := h
      exact hfirst
    | cons d before =>
      obtain ⟨rfl, rfl⟩ := List.cons.inj h
      exact hgap before after rfl hne

namespace LeftmostLongest

variable {gap other : List Char} {c : Char} {tail rest : List (List Char × List Char)}

/-- What stands before the first word has no word in it. -/
theorem wordless (h : LeftmostLongest gap tail) : Wordless gap (joined tail) := by
  cases tail with
  | nil => exact h
  | cons p tail =>
    obtain ⟨word, next⟩ := p
    rw [joined_cons]
    exact h.1

/-- What stands before the first word may be something else without a word in it. -/
theorem replace_head (h : LeftmostLongest gap tail) (hother : Wordless other (joined tail)) :
    LeftmostLongest other tail := by
  cases tail with
  | nil => exact hother
  | cons p tail =>
    obtain ⟨word, next⟩ := p
    rw [joined_cons] at hother
    exact ⟨hother, h.2⟩

/-- Nothing is left to cut in a text without characters. -/
theorem eq_nil_of_joined (h : LeftmostLongest [] tail) (hnil : joined tail = []) : tail = [] := by
  cases tail with
  | nil => rfl
  | cons p tail =>
    obtain ⟨word, next⟩ := p
    obtain ⟨-, hword, -⟩ := h
    rw [joined_cons, List.append_eq_nil_iff] at hnil
    exact absurd hnil.1 hword.controlWord.ne_nil

/-- Where one way of cutting has a word, the other does not keep a character. -/
theorem joined_ne_cons (h : LeftmostLongest [] tail) (h' : LeftmostLongest (c :: other) rest) :
    joined tail ≠ c :: (other ++ joined rest) := by
  intro heq
  cases tail with
  | nil => simp at heq
  | cons p tail =>
    obtain ⟨word, next⟩ := p
    obtain ⟨-, hword, -⟩ := h
    have hbegins := hword.begins
    rw [← joined_cons, heq] at hbegins
    exact (wordless_cons_iff.1 h'.wordless).1 word hword.controlWord hbegins

/-- **There is only one way to cut a text.**

**Proof sketch.** Induction on the length of the text. If one way cuts out a word at its start, so
does the other, and it is the longest word there. Otherwise both keep the first character. -/
theorem unique (h : LeftmostLongest gap tail) (h' : LeftmostLongest other rest)
    (heq : gap ++ joined tail = other ++ joined rest) : gap = other ∧ tail = rest := by
  induction hlength : (gap ++ joined tail).length using Nat.strong_induction_on
    generalizing gap tail other rest with
  | _ n ih =>
    cases gap with
    | nil =>
      cases other with
      | cons d other => exact absurd heq (h.joined_ne_cons h')
      | nil =>
        rw [List.nil_append, List.nil_append] at heq
        cases tail with
        | nil => exact ⟨rfl, (h'.eq_nil_of_joined heq.symm).symm⟩
        | cons p tail =>
          cases rest with
          | nil => exact ⟨rfl, h.eq_nil_of_joined heq⟩
          | cons q rest =>
            obtain ⟨word, next⟩ := p
            obtain ⟨word', next'⟩ := q
            obtain ⟨-, hword, hnext⟩ := h
            obtain ⟨-, hword', hnext'⟩ := h'
            rw [joined_cons, joined_cons] at heq
            obtain rfl : word = word' := hword.unique (heq ▸ hword')
            have hshorter : (next ++ joined tail).length < n := by
              have hpos := List.length_pos_iff.2 hword.controlWord.ne_nil
              have hsum : (word ++ (next ++ joined tail)).length =
                  word.length + (next ++ joined tail).length := List.length_append
              rw [← hlength, List.nil_append, joined_cons, hsum]
              omega
            obtain ⟨rfl, rfl⟩ :=
              ih _ hshorter hnext hnext' (List.append_cancel_left heq) rfl
            exact ⟨rfl, rfl⟩
    | cons c gap =>
      cases other with
      | nil => exact absurd heq.symm (h'.joined_ne_cons h)
      | cons d other =>
        obtain ⟨rfl, hrest⟩ := List.cons.inj heq
        have hkept := h.replace_head (wordless_cons_iff.1 h.wordless).2
        have hkept' := h'.replace_head (wordless_cons_iff.1 h'.wordless).2
        obtain ⟨rfl, rfl⟩ := ih _ (by rw [← hlength]; simp) hkept hkept' hrest rfl
        exact ⟨rfl, rfl⟩

end LeftmostLongest

/-- **Every text can be cut,** and stripping keeps what stands between the words. -/
theorem exists_leftmostLongest (s : List Char) :
    ∃ gap tail, gap ++ joined tail = s ∧ LeftmostLongest gap tail ∧
      strip s = gap ++ tail.flatMap Prod.snd := by
  induction hlength : s.length using Nat.strong_induction_on generalizing s with
  | _ n ih =>
    cases s with
    | nil => exact ⟨[], [], rfl, wordless_nil [], rfl⟩
    | cons c s =>
      cases hfound : controlSequence? (c :: s) with
      | none =>
        obtain ⟨gap, tail, rfl, hcut, hstrip⟩ := ih s.length (by rw [← hlength]; simp) s rfl
        refine ⟨c :: gap, tail, rfl, hcut.replace_head ?_, ?_⟩
        · refine wordless_cons_iff.2 ⟨fun word hword hbegins => ?_, hcut.wordless⟩
          obtain ⟨found, hsome, -⟩ := exists_controlSequence? hword hbegins
          rw [hfound] at hsome
          exact absurd hsome (by simp)
        · rw [strip_cons hfound, hstrip]
          rfl
      | some word =>
        have hword := controlSequence?_eq_some_iff.1 hfound
        obtain ⟨body, rfl, ⟨t, rfl⟩, -, -⟩ := controlSequence?_eq_some hfound
        have hshorter : t.length < n := by
          rw [← hlength, List.length_cons, List.length_append]
          omega
        obtain ⟨gap, tail, rfl, hcut, hstrip⟩ := ih t.length hshorter t rfl
        refine ⟨[], (c :: body, gap) :: tail, by simp, ⟨wordless_nil _, hword, hcut⟩, ?_⟩
        rw [strip_of_controlSequence? hfound, hstrip]
        rfl

/-- **Stripping deletes the leftmost longest control words.** Every text can be cut in exactly one
way such that each word is the longest one at its place and no word begins anywhere between them,
and what is left of the text is what stands between them. At every place, what trying the pattern
takes up first is the longest word there.

**Proof sketch.** The scanner takes all parameters that there are, so that no word is longer than
the one that it finds (`exists_ending?`), and trying the pattern finds the same
(`match?_controlPattern`). A text is then cut from left to right, and two ways to do it agree at
every step (`LeftmostLongest.unique`). -/
theorem strip_keeps_what_stands_between_longest_words (text : List Char) :
    (∃ f : Factors, (f.text = text ∧ f.LeftmostLongest ∧ strip text = f.kept) ∧
      ∀ g : Factors, g.text = text → g.LeftmostLongest → g = f) ∧
    ∀ s word, controlPattern.match? s = some word ↔ LongestWord word s := by
  constructor
  · obtain ⟨gap, tail, hjoined, hcut, hstrip⟩ := exists_leftmostLongest text
    refine ⟨⟨gap, tail⟩, ⟨hjoined, hcut, hstrip⟩, fun g hg hlongest => ?_⟩
    obtain ⟨head, rest⟩ := g
    obtain ⟨rfl, rfl⟩ := LeftmostLongest.unique hlongest hcut (hg.trans hjoined.symm)
    rfl
  · intro s word
    rw [match?_controlPattern]
    exact controlSequence?_eq_some_iff

/-- Two semicolons before a letter that ends no word are left, and the last digit ends the word. -/
example : strip "a\x1b[12;;xb".toList = "a;;xb".toList := by decide

end PaneLayout.Text
