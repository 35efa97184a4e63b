import PaneLayout.Proofs.Yaml.Blocks

set_option autoImplicit false

/-!
# Values as they are written

The style in which a text is written is chosen by what stands in it, and each style is read back by
rules of its own. Whatever the text, it comes back, and nothing is written that may not be read.

## Main results

* `PaneLayout.Yaml.styleOf_cases` — what is asked of a text in each style.
* `PaneLayout.Yaml.readsAs_written` — a value is read back as it was written, in whatever style.
* `PaneLayout.Yaml.isAllowed_written` — only characters are written that may stand in a text.
-/

namespace PaneLayout.Yaml

/-! ### Styles -/

/-- **What is asked of a text** in each style. Any text may stand between double quotes, and no text
is written in a folded block. -/
theorem styleOf_cases (text : List Char) :
    match styleOf text with
    | .plain => admitsPlain text = true ∧ isAmbiguous text = false
    | .single => '\n' ∉ text ∧ admitsSingle text = true
    | .double => True
    | .literal => '\n' ∈ text ∧ admitsLiteral text = true
    | .folded => False := by
  rw [styleOf]
  by_cases hfeed : '\n' ∈ text
  · cases hliteral : admitsLiteral text <;> simp [hfeed]
  · by_cases hplain : admitsPlain text = true ∧ isAmbiguous text = false
    · simp [hfeed, hplain]
    · have hquoted : ¬ ((admitsPlain text && !isAmbiguous text) = true) := by
        simpa using hplain
      cases hsingle : admitsSingle text <;> simp [hfeed, hquoted]

/-- Every character of a text that needs no escapes can be shown on a line. -/
theorem isPlainlyShown_of_mem {text : List Char} (h : needsEscapes text = false) :
    ∀ c ∈ text, isPlainlyShown c = true := by
  simp only [needsEscapes, Bool.or_eq_false_iff, List.any_eq_false] at h
  intro c hc
  simpa using h.1 c hc

/-- The empty text would not be read as a text. -/
theorem ne_nil_of_isAmbiguous {text : List Char} (h : isAmbiguous text = false) : text ≠ [] := by
  have hempty : isAmbiguous [] = true := rfl
  rintro rfl
  rw [hempty] at h
  cases h

/-- A text that admits the plain style and is not empty is a plain text. -/
theorem plainText_of_admitsPlain {text : List Char} (h : admitsPlain text = true)
    (hne : text ≠ []) : PlainText text := by
  simp only [admitsPlain, Bool.and_eq_true, Bool.not_eq_true', List.any_eq_false] at h
  obtain ⟨⟨⟨⟨hescapes, hbreak⟩, hfirst⟩, hlast⟩, hindicator⟩ := h
  refine ⟨hne, fun c hc => ⟨?_, ?_⟩, ?_, ?_, hindicator⟩
  · exact Bool.eq_false_iff.2 (hbreak c hc)
  · exact ne_tab_of_isPlainlyShown (isPlainlyShown_of_mem hescapes c hc)
  · intro hspace
    rw [hspace] at hfirst
    cases hfirst
  · intro hspace
    rw [hspace] at hlast
    cases hlast

/-- A text that admits the single-quoted style and has no line feed is one for single quotes. -/
theorem singleText_of_admitsSingle {text : List Char} (h : admitsSingle text = true)
    (hfeed : '\n' ∉ text) : SingleText text := by
  simp only [admitsSingle, Bool.and_eq_true, Bool.not_eq_true'] at h
  have hescapes := h.1
  simp only [needsEscapes, Bool.or_eq_false_iff] at hescapes
  exact ⟨isPlainlyShown_of_mem h.1, hfeed, hescapes.2, h.2⟩

/-! ### Reading back -/

/-- A value that ends in no line break lacks one. -/
theorem ending_of_last {value : List Char} {c : Char} (hlast : value.getLast? = some c)
    (hc : isBreak c = false) : ending value = ['\n'] := by
  rw [ending, hlast, Option.any_some, hc]
  rfl

/-- A text between single quotes ends with the closing quote. -/
theorem getLast?_singleQuoted (broken : Bool) (text : List Char) :
    (singleQuoted broken text).getLast? = some '\'' := by
  induction text generalizing broken with
  | nil => rw [singleQuoted, List.getLast?_concat]
  | cons c text ih =>
    have hne : ∀ broken, singleQuoted broken text ≠ [] := fun broken hnil => by
      have hlast := ih broken
      rw [hnil] at hlast
      cases hlast
    have hbehind : ∀ (piece : List Char) (broken : Bool),
        (piece ++ singleQuoted broken text).getLast? = some '\'' := fun piece broken => by
      rw [List.getLast?_append_of_ne_nil _ (hne broken), ih]
    rw [singleQuoted]
    split
    · exact hbehind [c] broken
    · split
      · exact hbehind _ true
      · exact hbehind _ false

/-- What a text lacks at the end of its last line is what its block lacks. -/
theorem literalLines_ending {text : List Char} (hne : text ≠ []) (head : List Char) :
    literalLines true text ++ ending (head ++ literalLines true text) =
      literalLines true (text ++ ending text) := by
  have hlast := getLast?_literalLines true text
  have hlines : literalLines true text ≠ [] := by
    intro hnil
    rw [hnil, List.getLast?_nil, eq_comm, List.getLast?_eq_none_iff] at hlast
    exact hne hlast
  simp only [ending]
  rw [List.getLast?_append_of_ne_nil _ hlines, hlast]
  cases text.getLast?.any isBreak with
  | true => simp
  | false => exact (literalLines_append_break rfl true text).symm

/-- **A value is read back as it was written**, in whatever style, if the next line begins at the
margin.

**Proof sketch.** Each style asks of the text what its reading needs. -/
theorem readsAs_written (text : List Char) {c : Char} (hc : isBreak c = false)
    (hblank : isBlank c = false) (s : List Char) :
    ReadsAs (written text ++ ending (written text)) (c :: s) (styleOf text) text := by
  have hcases := styleOf_cases text
  cases hstyle : styleOf text with
  | plain =>
    rw [hstyle] at hcases
    obtain ⟨hplain, hclear⟩ := hcases
    have hne := ne_nil_of_isAmbiguous hclear
    have htext := plainText_of_admitsPlain hplain hne
    have hwritten : written text = text := by rw [written, hstyle]
    have hending : ending text = ['\n'] :=
      ending_of_last (List.getLast?_eq_some_getLast hne) (htext.line _ (List.getLast_mem hne)).1
    rw [hwritten, hending]
    exact readsAs_plain htext (.inl rfl) (endsPlain_cons hc hblank s)
  | single =>
    rw [hstyle] at hcases
    have htext := singleText_of_admitsSingle hcases.2 hcases.1
    have hwritten : written text = '\'' :: singleQuoted false text := by rw [written, hstyle]
    have hending : ending (written text) = ['\n'] := by
      refine ending_of_last (c := '\'') ?_ rfl
      rw [hwritten, List.getLast?_cons, getLast?_singleQuoted]
      rfl
    rw [hending, hwritten]
    exact readsAs_single htext (.inl rfl) (c :: s)
  | double =>
    have hwritten : written text = '"' :: (text.flatMap escape ++ ['"']) := by
      rw [written, hstyle]
    have hending : ending (written text) = ['\n'] := by
      refine ending_of_last (c := '"') ?_ rfl
      rw [hwritten, ← List.cons_append, List.getLast?_concat]
    rw [hending, hwritten]
    exact readsAs_double text (.inl rfl) (c :: s)
  | literal =>
    rw [hstyle] at hcases
    obtain ⟨hfeed, hliteral⟩ := hcases
    have hne : text ≠ [] := List.ne_nil_of_mem hfeed
    have hwritten : written text = literalHead text ++ literalLines true text := by
      rw [written, hstyle]
    have hescapes : needsEscapes text = false := by
      simp only [admitsLiteral, Bool.and_eq_true, Bool.not_eq_true'] at hliteral
      exact hliteral.1
    rw [hwritten, List.append_assoc, literalLines_ending hne]
    exact readsAs_literal hne (isPlainlyShown_of_mem hescapes) hc hblank s
  | folded =>
    rw [hstyle] at hcases
    exact hcases.elim

/-! ### The characters of values -/

/-- Something is written for every text. -/
theorem written_ne_nil (text : List Char) : written text ≠ [] := by
  have hcases := styleOf_cases text
  rw [written]
  cases hstyle : styleOf text with
  | plain =>
    rw [hstyle] at hcases
    exact ne_nil_of_isAmbiguous hcases.2
  | single => exact List.cons_ne_nil _ _
  | double => exact List.cons_ne_nil _ _
  | literal => simp [literalHead_eq]
  | folded => simp [literalHead_eq]

/-- A margin may stand in a text. -/
theorem isAllowed_margin (broken : Bool) :
    ∀ c ∈ (if broken then margin else []), isAllowed c = true := by
  cases broken
  · exact fun c hc => nomatch hc
  · exact forall_mem_of_all (by decide)

/-- Between single quotes, quotes and margins are added to the text. -/
theorem isAllowed_singleQuoted {text : List Char} (h : ∀ c ∈ text, isAllowed c = true)
    (broken : Bool) : ∀ c ∈ singleQuoted broken text, isAllowed c = true := by
  induction text generalizing broken with
  | nil =>
    rw [singleQuoted]
    exact List.forall_mem_append.2 ⟨isAllowed_margin broken, forall_mem_of_all (by decide)⟩
  | cons d text ih =>
    obtain ⟨hd, htext⟩ := List.forall_mem_cons.1 h
    have htwice : ∀ (p : Prop) [Decidable p], ∀ c ∈ (if p then [d, d] else [d]),
        isAllowed c = true := by
      intro p _
      split <;> simp [hd]
    rw [singleQuoted]
    split
    · exact List.forall_mem_cons.2 ⟨hd, ih htext broken⟩
    · split
      · exact List.forall_mem_append.2 ⟨htwice _, ih htext true⟩
      · exact List.forall_mem_append.2
          ⟨List.forall_mem_append.2 ⟨isAllowed_margin broken, htwice _⟩, ih htext false⟩

/-- In a block, margins are added to the text. -/
theorem isAllowed_literalLines {text : List Char} (h : ∀ c ∈ text, isAllowed c = true)
    (broken : Bool) : ∀ c ∈ literalLines broken text, isAllowed c = true := by
  induction text generalizing broken with
  | nil => exact fun c hc => nomatch hc
  | cons d text ih =>
    obtain ⟨hd, htext⟩ := List.forall_mem_cons.1 h
    cases hbreak : isBreak d with
    | true =>
      rw [literalLines_break hbreak]
      exact List.forall_mem_cons.2 ⟨hd, ih htext true⟩
    | false =>
      rw [literalLines_char hbreak]
      exact List.forall_mem_append.2
        ⟨isAllowed_margin broken, List.forall_mem_cons.2 ⟨hd, ih htext false⟩⟩

/-- The head of a block may stand in a text. -/
theorem isAllowed_literalHead (text : List Char) : ∀ c ∈ literalHead text, isAllowed c = true := by
  have hmargin : ∀ told, (toldMargin told).all isAllowed = true := by decide
  have hsign : ∀ k : Chomping, k.sign.all isAllowed = true := by
    intro k
    cases k <;> decide
  rw [literalHead_eq]
  exact List.forall_mem_cons.2 ⟨rfl, List.forall_mem_append.2
    ⟨List.all_eq_true.1 (hmargin _), List.forall_mem_append.2
      ⟨List.all_eq_true.1 (hsign _), forall_mem_of_all (by decide)⟩⟩⟩

/-- **Whatever the text, only characters are written that may stand in one.** -/
theorem isAllowed_written (text : List Char) : ∀ c ∈ written text, isAllowed c = true := by
  have hcases := styleOf_cases text
  have hallowed : needsEscapes text = false → ∀ c ∈ text, isAllowed c = true := fun h c hc =>
    isAllowed_of_isPlainlyShown (isPlainlyShown_of_mem h c hc)
  cases hstyle : styleOf text with
  | plain =>
    rw [hstyle] at hcases
    simp only [admitsPlain, Bool.and_eq_true, Bool.not_eq_true'] at hcases
    have hwritten : written text = text := by rw [written, hstyle]
    rw [hwritten]
    exact hallowed hcases.1.1.1.1.1
  | single =>
    rw [hstyle] at hcases
    simp only [admitsSingle, Bool.and_eq_true, Bool.not_eq_true'] at hcases
    have hwritten : written text = '\'' :: singleQuoted false text := by rw [written, hstyle]
    rw [hwritten]
    exact List.forall_mem_cons.2 ⟨rfl, isAllowed_singleQuoted (hallowed hcases.2.1) false⟩
  | double =>
    have hwritten : written text = '"' :: (text.flatMap escape ++ ['"']) := by
      rw [written, hstyle]
    rw [hwritten]
    refine List.forall_mem_cons.2
      ⟨rfl, List.forall_mem_append.2 ⟨fun c hc => ?_, forall_mem_of_all (by decide)⟩⟩
    obtain ⟨d, -, hd⟩ := List.mem_flatMap.1 hc
    exact ((escaped_escape d).mem c hd).2
  | literal =>
    rw [hstyle] at hcases
    simp only [admitsLiteral, Bool.and_eq_true, Bool.not_eq_true'] at hcases
    have hwritten : written text = literalHead text ++ literalLines true text := by
      rw [written, hstyle]
    rw [hwritten]
    exact List.forall_mem_append.2
      ⟨isAllowed_literalHead text, isAllowed_literalLines (hallowed hcases.2.1) true⟩
  | folded =>
    rw [hstyle] at hcases
    exact hcases.elim

end PaneLayout.Yaml
