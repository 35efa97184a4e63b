import Mathlib.Data.List.Basic
import PaneLayout.Proofs.Yaml.Quoted

set_option autoImplicit false

/-!
# Literal blocks

A text of several lines is written as a block, with a margin before each line that is not empty. The
head of the block tells the margin where it could not be seen, and what becomes of the line breaks
at the end, since a block in a mapping always ends in one.

## Main definitions

* `PaneLayout.Yaml.chompingOf` — what the head of the block tells about the end of a text.
* `PaneLayout.Yaml.ending` — what a value lacks at the end of its line.

## Main results

* `PaneLayout.Yaml.blockLines_breaks` — the empty lines at the end of a block.
* `PaneLayout.Yaml.readsLines_body` — the lines of a block, up to the last one that is not empty.
* `PaneLayout.Yaml.blockScalar_literal` — a block is read back.
* `PaneLayout.Yaml.readsAs_literal` — a value in a block is read back.
-/

namespace PaneLayout.Yaml

open Glyph (locate locate_cons locate_append locate_lineEnd locate_break)

/-! ### Steps of a block -/

section Steps

variable {last empty : List Char} {blank : Bool} {g : Glyph} {s : List Glyph}

/-- A line goes on up to its break. -/
theorem blockLines_char (hg : g.isBreak = false) :
    blockLines true 2 true last empty blank (g :: s) =
      (blockLines true 2 true [] [] blank s).map (.prepend [g.char]) := by
  simp [blockLines, hg]

/-- A line ends with its break. -/
theorem blockLines_lineEnd (hg : g.isBreak = true) :
    blockLines true 2 true last empty blank (g :: s) =
      blockLines true 2 false [g.char] [] blank s := by
  simp [blockLines, hg]

/-- An empty line. -/
theorem blockLines_emptyLine (hg : g.isBreak = true) (hblank : g.isBlank = false) :
    blockLines true 2 false last empty blank (g :: s) =
      blockLines true 2 false last (empty ++ [g.char]) blank s := by
  simp only [Glyph.isBlank, isBlank, Bool.or_eq_false_iff, beq_eq_false_iff_ne] at hblank
  simp [blockLines, hg, hblank]

/-- The margin of a line is passed over. -/
theorem blockLines_margin (hg : g.char = ' ') (hcolumn : g.column < 2) :
    blockLines true 2 false last empty blank (g :: s) =
      blockLines true 2 false last empty blank s := by
  simp [blockLines, hg, hcolumn]

/-- A line begins behind the margin. -/
theorem blockLines_lineStart (hg : g.isBreak = false) (hcolumn : g.column = 2) :
    blockLines true 2 false last empty blank (g :: s) =
      (blockLines true 2 true [] [] g.isBlank s).map (.prepend (last ++ empty ++ [g.char])) := by
  simp [blockLines, hg, hcolumn, joinLines]

/-- The block ends before something at the margin of the text. -/
theorem blockLines_end (hg : g.isBreak = false) (hblank : g.isBlank = false)
    (hcolumn : g.column = 0) :
    blockLines true 2 false last empty blank (g :: s) = some ⟨[], last, empty, g :: s⟩ := by
  simp only [Glyph.isBlank, isBlank, Bool.or_eq_false_iff, beq_eq_false_iff_ne] at hblank
  simp [blockLines, hg, hblank, hcolumn]

end Steps

/-! ### The lines of a block -/

/-- A line break stands without a margin, and the next line begins behind it. -/
theorem literalLines_break {d : Char} (hd : isBreak d = true) (broken : Bool) (text : List Char) :
    literalLines broken (d :: text) = d :: literalLines true text := by
  rw [literalLines, if_pos hd]

/-- Any other character stands behind a margin, if a line begins with it. -/
theorem literalLines_char {d : Char} (hd : isBreak d = false) (broken : Bool) (text : List Char) :
    literalLines broken (d :: text) =
      (if broken then margin else []) ++ d :: literalLines false text := by
  rw [literalLines, if_neg (by simp [hd])]

/-- **Reading on within a line.** The rest of a text is read, its last line break and the breaks of
empty lines behind it apart, and the block ends before `s`. -/
def ReadsLine (text s read lastBreak emptyLines : List Char) : Prop :=
  ∀ blank line column offset, ∃ line', blockLines true 2 true [] [] blank
    (locate line column offset (literalLines false text ++ s)) =
      some ⟨read, lastBreak, emptyLines, locate line' 0 0 s⟩

/-- **Reading on between lines.** The same where a line begins. What has been read of line breaks
before belongs to the text. -/
def ReadsLines (text s read lastBreak emptyLines : List Char) : Prop :=
  ∀ last empty blank line, ∃ line', blockLines true 2 false last empty blank
    (locate line 0 0 (literalLines true text ++ s)) =
      some ⟨last ++ empty ++ read, lastBreak, emptyLines, locate line' 0 0 s⟩

section Lines

variable {d : Char} {text s read lastBreak emptyLines : List Char}

/-- One more character within the line. -/
theorem ReadsLine.cons (h : ReadsLine text s read lastBreak emptyLines) (hd : isBreak d = false) :
    ReadsLine (d :: text) s (d :: read) lastBreak emptyLines := by
  intro blank line column offset
  obtain ⟨line', hread⟩ := h blank line (column + 1) (offset + d.utf8Size)
  refine ⟨line', ?_⟩
  rw [literalLines_char hd, if_neg Bool.false_ne_true, List.nil_append, List.cons_append,
    locate_cons hd, blockLines_char (g := ⟨d, line, column, offset⟩) hd, hread]
  rfl

/-- A line begins, behind its margin. -/
theorem ReadsLine.begin (h : ReadsLine text s read lastBreak emptyLines) (hd : isBreak d = false) :
    ReadsLines (d :: text) s (d :: read) lastBreak emptyLines := by
  intro last empty blank line
  obtain ⟨line', hread⟩ :=
    h (isBlank d) line 3 (0 + ' '.utf8Size + ' '.utf8Size + d.utf8Size)
  have hmargin : literalLines true (d :: text) ++ s =
      ' ' :: ' ' :: d :: (literalLines false text ++ s) := by
    rw [literalLines_char hd]
    rfl
  refine ⟨line', ?_⟩
  rw [hmargin, locate_cons rfl, locate_cons rfl, locate_cons hd,
    blockLines_margin rfl Nat.zero_lt_two, blockLines_margin rfl Nat.one_lt_two,
    blockLines_lineStart (g := ⟨d, line, 2, 0 + ' '.utf8Size + ' '.utf8Size⟩) hd rfl]
  change (blockLines true 2 true [] [] (isBlank d) _).map _ = _
  rw [hread]
  simp [BlockText.prepend]

/-- A line ends before others. -/
theorem ReadsLines.lineEnd (h : ReadsLines text s read lastBreak emptyLines)
    (hd : isBreak d = true) (hshown : isPlainlyShown d = true) :
    ReadsLine (d :: text) s (d :: read) lastBreak emptyLines := by
  intro blank line column offset
  obtain ⟨line', hread⟩ := h [d] [] blank (line + 1)
  refine ⟨line', ?_⟩
  rw [literalLines_break hd, List.cons_append,
    locate_break (eq_of_isBreak_of_isPlainlyShown hshown hd),
    blockLines_lineEnd (g := ⟨d, line, column, offset⟩) hd, hread]
  rfl

/-- An empty line before others. -/
theorem ReadsLines.emptyLine (h : ReadsLines text s read lastBreak emptyLines)
    (hd : isBreak d = true) (hshown : isPlainlyShown d = true) :
    ReadsLines (d :: text) s (d :: read) lastBreak emptyLines := by
  intro last empty blank line
  obtain ⟨line', hread⟩ := h last (empty ++ [d]) blank (line + 1)
  refine ⟨line', ?_⟩
  rw [literalLines_break hd, List.cons_append,
    locate_break (eq_of_isBreak_of_isPlainlyShown hshown hd),
    blockLines_emptyLine (g := ⟨d, line, 0, 0⟩) hd (isBlank_of_isBreak hd), hread]
  simp

variable {c : Char}

/-- **The empty lines at the end** are kept apart from the lines before. -/
theorem blockLines_breaks (hc : isBreak c = false) (hblank : isBlank c = false)
    {breaks : List Char} (hbreaks : ∀ d ∈ breaks, isBreak d = true)
    (hshown : ∀ d ∈ breaks, isPlainlyShown d = true) (last empty : List Char) (blank : Bool)
    (line : Nat) (s : List Char) : ∃ line', blockLines true 2 false last empty blank
      (locate line 0 0 (literalLines true breaks ++ c :: s)) =
        some ⟨[], last, empty ++ breaks, locate line' 0 0 (c :: s)⟩ := by
  induction breaks generalizing empty line with
  | nil =>
    refine ⟨line, ?_⟩
    rw [literalLines, List.nil_append, List.append_nil, locate_cons hc]
    exact blockLines_end hc hblank rfl
  | cons d breaks ih =>
    obtain ⟨hd, hbreaks⟩ := List.forall_mem_cons.1 hbreaks
    obtain ⟨hdshown, hshown⟩ := List.forall_mem_cons.1 hshown
    obtain ⟨line', hread⟩ := ih hbreaks hshown (empty ++ [d]) (line + 1)
    refine ⟨line', ?_⟩
    rw [literalLines_break hd, List.cons_append,
      locate_break (eq_of_isBreak_of_isPlainlyShown hdshown hd),
      blockLines_emptyLine (g := ⟨d, line, 0, 0⟩) hd (isBlank_of_isBreak hd), hread,
      List.append_assoc]
    rfl

/-- The last line ends, and only empty lines are left. -/
theorem readsLine_lastBreak (hc : isBreak c = false) (hblank : isBlank c = false)
    {breaks : List Char} (hd : isBreak d = true) (hbreaks : ∀ k ∈ breaks, isBreak k = true)
    (hshown : ∀ k ∈ d :: breaks, isPlainlyShown k = true) (s : List Char) :
    ReadsLine (d :: breaks) (c :: s) [] [d] breaks := by
  intro blank line column offset
  obtain ⟨hdshown, hshown⟩ := List.forall_mem_cons.1 hshown
  obtain ⟨line', hread⟩ := blockLines_breaks hc hblank hbreaks hshown [d] [] blank (line + 1) s
  refine ⟨line', ?_⟩
  rw [literalLines_break hd, List.cons_append,
    locate_break (eq_of_isBreak_of_isPlainlyShown hdshown hd),
    blockLines_lineEnd (g := ⟨d, line, column, offset⟩) hd, hread]
  rfl

/-- **The lines of a block** are read up to the last one that is not empty, whose last character is
`b` and whose break is `k`.

**Proof sketch.** Induction on what stands before `b`, from within a line and from between two lines
at once. -/
theorem readsLines_body (hc : isBreak c = false) (hblank : isBlank c = false) {b k : Char}
    (hb : isBreak b = false) (hk : isBreak k = true) {body breaks : List Char}
    (hbreaks : ∀ d ∈ breaks, isBreak d = true)
    (hshown : ∀ d ∈ body ++ b :: k :: breaks, isPlainlyShown d = true) (s : List Char) :
    ReadsLine (body ++ b :: k :: breaks) (c :: s) (body ++ [b]) [k] breaks ∧
      ReadsLines (body ++ b :: k :: breaks) (c :: s) (body ++ [b]) [k] breaks := by
  induction body with
  | nil =>
    obtain ⟨-, hshown⟩ := List.forall_mem_cons.1 hshown
    have hlast := readsLine_lastBreak hc hblank hk hbreaks hshown s
    exact ⟨hlast.cons hb, hlast.begin hb⟩
  | cons d body ih =>
    obtain ⟨hdshown, hshown⟩ := List.forall_mem_cons.1 hshown
    obtain ⟨hline, hlines⟩ := ih hshown
    cases hd : isBreak d with
    | true => exact ⟨hlines.lineEnd hd hdshown, hlines.emptyLine hd hdshown⟩
    | false => exact ⟨hline.cons hd, hline.begin hd⟩

end Lines

/-! ### The head of a block -/

/-- The sign of a chomping, as it is written. -/
def Chomping.sign : Chomping → List Char
  | .strip => ['-']
  | .clip => []
  | .keep => ['+']

/-- The margin, where it is told. -/
def toldMargin (told : Bool) : List Char := if told then ['2'] else []

/-- **What becomes of the line breaks at the end**: none belongs to the text, or one, or more than
one. A single break is kept as well if there is nothing else. -/
def chompingOf (text : List Char) : Chomping :=
  match text.reverse with
  | [] => .strip
  | c :: s =>
    if !isBreak c then .strip
    else if s.isEmpty || s.head?.any isBreak then .keep
    else .clip

/-- The head of a block consists of its sign, the margin and the chomping. -/
theorem literalHead_eq (text : List Char) : literalHead text =
    '|' :: (toldMargin (text.head?.any isSpaceOrBreak) ++ ((chompingOf text).sign ++ ['\n'])) := by
  rw [literalHead, chompingOf]
  cases text.reverse with
  | nil => simp [toldMargin, Chomping.sign]
  | cons c s =>
    simp only [toldMargin]
    cases isBreak c with
    | false => simp [Chomping.sign]
    | true => cases s.isEmpty || s.head?.any isBreak <;> simp [Chomping.sign]

/-- **The head of a block is read back.** -/
theorem blockHead?_written (told : Bool) (k : Chomping) (line column offset : Nat)
    (s : List Char) :
    blockHead? (locate line column offset (toldMargin told ++ (k.sign ++ '\n' :: s))) =
      some (k, if told then some 2 else none, locate (line + 1) 0 0 s) := by
  cases told <;> cases k <;>
    simp [toldMargin, Chomping.sign, locate_cons, locate_break, isBreak] <;> rfl

/-- **The margin is seen** in a text that begins with neither a space nor a line break. -/
theorem leadingBreaks_line {d : Char} (hd : isSpaceOrBreak d = false)
    (hshown : isPlainlyShown d = true) (line : Nat) (text s : List Char) :
    ∃ rest, leadingBreaks 0 (locate line 0 0 (literalLines true (d :: text) ++ s)) =
        some ([], 2, rest) ∧
      blockLines true 2 false [] [] false rest =
        blockLines true 2 false [] [] false
          (locate line 0 0 (literalLines true (d :: text) ++ s)) := by
  simp only [isSpaceOrBreak, isSpace, Bool.or_eq_false_iff, beq_eq_false_iff_ne] at hd
  obtain ⟨hspace, hbreak⟩ := hd
  have htab := ne_tab_of_isPlainlyShown hshown
  have hmargin : literalLines true (d :: text) ++ s =
      ' ' :: ' ' :: d :: (literalLines false text ++ s) := by
    rw [literalLines_char hbreak]
    rfl
  refine ⟨locate line 2 (0 + ' '.utf8Size + ' '.utf8Size) (d :: (literalLines false text ++ s)),
    ?_, ?_⟩
  · rw [hmargin, locate_cons rfl, locate_cons rfl, locate_cons hbreak]
    simp [leadingBreaks, hspace, htab, Glyph.isBreak, hbreak]
  · rw [hmargin, locate_cons (c := ' ') rfl, locate_cons (c := ' ') rfl,
      blockLines_margin rfl Nat.zero_lt_two, blockLines_margin rfl Nat.one_lt_two]

/-! ### The end of a block -/

/-- **What a value lacks at the end of its line**: a line break, unless it ends in one itself. -/
def ending (value : List Char) : List Char := if value.getLast?.any isBreak then [] else ['\n']

/-- The line of an entry is its key, a colon and its value to the end of the line. -/
theorem entryLines_eq (key : List Char) {value : List Char} (h : value ≠ []) :
    entryLines key value = key ++ ':' :: ' ' :: (value ++ ending value) := by
  have hlast : (key ++ [':', ' '] ++ value).getLast? = value.getLast? := by
    rw [List.getLast?_append_of_ne_nil _ h]
  simp only [entryLines, ending, hlast]
  cases value.getLast?.any isBreak <;> simp

/-- A line break at the end of a text stands at the end of its lines. -/
theorem literalLines_append_break {k : Char} (hk : isBreak k = true) (broken : Bool)
    (text : List Char) : literalLines broken (text ++ [k]) = literalLines broken text ++ [k] := by
  induction text generalizing broken with
  | nil => rw [List.nil_append, literalLines_break hk, literalLines, literalLines, List.nil_append]
  | cons d text ih =>
    rw [List.cons_append]
    cases hd : isBreak d with
    | true => rw [literalLines_break hd, literalLines_break hd, ih, List.cons_append]
    | false =>
      rw [literalLines_char hd, literalLines_char hd, ih, List.append_assoc, List.cons_append]

/-- The lines of a text end with its last character. -/
theorem getLast?_literalLines (broken : Bool) (text : List Char) :
    (literalLines broken text).getLast? = text.getLast? := by
  induction text generalizing broken with
  | nil => rw [literalLines]
  | cons d text ih =>
    have hcons : ∀ broken, (d :: literalLines broken text).getLast? = (d :: text).getLast? :=
      fun broken => by rw [List.getLast?_cons, List.getLast?_cons, ih]
    cases hd : isBreak d with
    | true => rw [literalLines_break hd, hcons]
    | false =>
      rw [literalLines_char hd, List.getLast?_append_of_ne_nil _ (List.cons_ne_nil _ _), hcons]

/-- A text ends with line breaks behind its last other character, if it has one. -/
theorem exists_last_char (text : List Char) : (∀ k ∈ text, isBreak k = true) ∨
    ∃ body b breaks, text = body ++ b :: breaks ∧ isBreak b = false ∧
      ∀ k ∈ breaks, isBreak k = true := by
  induction text with
  | nil => exact .inl fun k hk => nomatch hk
  | cons d text ih =>
    rcases ih with hbreaks | ⟨body, b, breaks, rfl, hb, hbreaks⟩
    · cases hd : isBreak d with
      | true => exact .inl (List.forall_mem_cons.2 ⟨hd, hbreaks⟩)
      | false => exact .inr ⟨[], d, text, rfl, hd, hbreaks⟩
    · exact .inr ⟨d :: body, b, breaks, rfl, hb, hbreaks⟩

/-- A text that ends with line breaks ends with one. -/
theorem any_isBreak_getLast? {breaks : List Char} (hne : breaks ≠ [])
    (hbreaks : ∀ k ∈ breaks, isBreak k = true) (before : List Char) :
    (before ++ breaks).getLast?.any isBreak = true := by
  rw [List.getLast?_append_of_ne_nil _ hne, List.getLast?_eq_some_getLast hne, Option.any_some]
  exact hbreaks _ (List.getLast_mem hne)

/-- The chomping is told by the last two characters. -/
theorem chompingOf_concat (before : List Char) (c : Char) : chompingOf (before ++ [c]) =
    if !isBreak c then .strip
    else if before.isEmpty || before.getLast?.any isBreak then .keep
    else .clip := by
  simp [chompingOf]

/-- Several line breaks at the end are kept, and so is one that stands alone. -/
theorem chompingOf_breaks {before breaks : List Char} (hne : breaks ≠ [])
    (hbreaks : ∀ k ∈ breaks, isBreak k = true) (hmany : before = [] ∨ 1 < breaks.length) :
    chompingOf (before ++ breaks) = .keep := by
  rcases List.eq_nil_or_concat breaks with rfl | ⟨init, m, rfl⟩
  · exact absurd rfl hne
  · rw [List.concat_eq_append] at hbreaks hmany ⊢
    obtain ⟨hinit, hm⟩ := List.forall_mem_append.1 hbreaks
    have hm := List.forall_mem_singleton.1 hm
    have hlast : ((before ++ init).isEmpty || (before ++ init).getLast?.any isBreak) = true := by
      by_cases hempty : init = []
      · subst hempty
        rcases hmany with rfl | hmany
        · rfl
        · simp at hmany
      · rw [any_isBreak_getLast? hempty hinit, Bool.or_true]
    rw [← List.append_assoc, chompingOf_concat, hm, hlast]
    rfl

/-- **The lines of a block are read back**, with the line breaks at the end that belong to the
text. -/
theorem blockLines_text {text : List Char} (hne : text ≠ [])
    (hshown : ∀ d ∈ text, isPlainlyShown d = true) {c : Char} (hc : isBreak c = false)
    (hblank : isBlank c = false) (s : List Char) : ∃ read lastBreak emptyLines,
      (∀ line, ∃ line', blockLines true 2 false [] [] false
        (locate line 0 0 (literalLines true (text ++ ending text) ++ c :: s)) =
          some ⟨read, lastBreak, emptyLines, locate line' 0 0 (c :: s)⟩) ∧
      ∀ rest, BlockText.chomp ⟨read, lastBreak, emptyLines, rest⟩ (chompingOf text) = text := by
  rcases exists_last_char text with hbreaks | ⟨body, b, breaks, rfl, hb, hbreaks⟩
  · -- Nothing but line breaks: none of them ends a line that is not empty, so all are kept.
    have hending : ending text = [] := by
      rw [ending, if_pos]
      exact any_isBreak_getLast? hne hbreaks []
    have hkeep : chompingOf text = .keep := chompingOf_breaks hne hbreaks (.inl rfl)
    refine ⟨[], [], text, fun line => ?_, fun rest => by rw [hkeep]; rfl⟩
    rw [hending, List.append_nil]
    exact blockLines_breaks hc hblank hbreaks hshown [] [] false line s
  · cases breaks with
    | nil =>
      -- The break that ends the last line does not belong to the text, and is stripped.
      have hending : ending (body ++ [b]) = ['\n'] := by simp [ending, hb]
      have hstrip : chompingOf (body ++ [b]) = .strip := by rw [chompingOf_concat, hb]; rfl
      have hshown' : ∀ d ∈ body ++ [b, '\n'], isPlainlyShown d = true := by
        rw [List.append_cons]
        exact List.forall_mem_append.2 ⟨hshown, forall_mem_of_all (by decide)⟩
      obtain ⟨-, hread⟩ := readsLines_body hc hblank hb (k := '\n') rfl hbreaks hshown' s
      refine ⟨body ++ [b], ['\n'], [], fun line => ?_, fun rest => by rw [hstrip]; rfl⟩
      rw [hending, List.append_assoc]
      exact hread [] [] false line
    | cons k more =>
      obtain ⟨hk, hmore⟩ := List.forall_mem_cons.1 hbreaks
      have hending : ending (body ++ b :: k :: more) = [] := by
        rw [ending, if_pos]
        rw [List.append_cons]
        exact any_isBreak_getLast? (List.cons_ne_nil k more) hbreaks (body ++ [b])
      obtain ⟨-, hread⟩ := readsLines_body hc hblank hb hk hmore hshown s
      refine ⟨body ++ [b], [k], more, fun line => ?_, fun rest => ?_⟩
      · rw [hending, List.append_nil]
        exact hread [] [] false line
      · cases more with
        | nil =>
          have hclip : chompingOf (body ++ [b, k]) = .clip := by
            rw [List.append_cons, chompingOf_concat, hk]
            simp [hb]
          rw [hclip]
          simp [BlockText.chomp]
        | cons m more =>
          have hkeep : chompingOf (body ++ b :: k :: m :: more) = .keep := by
            rw [List.append_cons]
            exact chompingOf_breaks (List.cons_ne_nil _ _) hbreaks (.inr (by simp))
          rw [hkeep]
          simp [BlockText.chomp]

/-- **A block is read back.** -/
theorem blockScalar_literal {text : List Char} (hne : text ≠ [])
    (hshown : ∀ d ∈ text, isPlainlyShown d = true) {c : Char} (hc : isBreak c = false)
    (hblank : isBlank c = false) (line column offset : Nat) (s : List Char) : ∃ line',
      blockScalar true 0 (locate line column offset (toldMargin (text.head?.any isSpaceOrBreak) ++
        ((chompingOf text).sign ++ '\n' ::
          (literalLines true (text ++ ending text) ++ c :: s)))) =
        some (text, locate line' 0 0 (c :: s)) := by
  obtain ⟨read, lastBreak, emptyLines, hread, hchomp⟩ := blockLines_text hne hshown hc hblank s
  obtain ⟨line', hread⟩ := hread (line + 1)
  refine ⟨line', ?_⟩
  cases htold : text.head?.any isSpaceOrBreak with
  | true =>
    rw [blockScalar, blockHead?_written]
    simp [hread, hchomp]
  | false =>
    -- The margin is found in the first line, from where on the lines are read.
    obtain ⟨d, text', rfl⟩ := List.exists_cons_of_ne_nil hne
    obtain ⟨rest, hlead, hrest⟩ := leadingBreaks_line (d := d) htold
      (hshown d List.mem_cons_self) (line + 1) (text' ++ ending (d :: text')) (c :: s)
    rw [List.cons_append] at hread ⊢
    rw [hread] at hrest
    rw [blockScalar, blockHead?_written]
    simp [hlead, hrest, hchomp]

/-! ### Values in blocks -/

/-- A vertical bar begins a literal block. -/
theorem Lexer.take_bar {l : Lexer} {g : Glyph} (hflow : l.inFlow = false) (hcolumn : g.column ≠ 0)
    (hg : g.char = '|') (s : List Glyph) : l.take g s = l.block true s := by
  have hmark : Glyph.atDocumentMark (g :: s) = false :=
    Glyph.atDocumentMark_eq_false (.inl hcolumn) s
  simp [take, hcolumn, hmark, hg, hflow]

/-- A literal block that is read for a value. -/
theorem Lexer.block_atValue {s rest : List Glyph} {text : List Char}
    (h : blockScalar true 0 s = some (text, rest)) (found : List Token) (glyphs : List Glyph) :
    (Lexer.atValue found glyphs).block true s =
      some (.atLine true (.scalar .literal text :: found) rest) := by
  have hdrop : (Lexer.atValue found glyphs).dropKey = some (Lexer.atValue found glyphs) := rfl
  have hread : blockScalar true (Lexer.atValue found glyphs).indent s = some (text, rest) := h
  rw [Lexer.block, hdrop, Option.bind_eq_bind, Option.bind_some, hread]
  rfl

/-- **A literal block is read back.** -/
theorem readsAs_literal {text : List Char} (hne : text ≠ [])
    (hshown : ∀ d ∈ text, isPlainlyShown d = true) {c : Char} (hc : isBreak c = false)
    (hblank : isBlank c = false) (s : List Char) :
    ReadsAs (literalHead text ++ literalLines true (text ++ ending text)) (c :: s) .literal
      text := by
  intro n found line column offset hcolumn
  obtain ⟨line', hread⟩ := blockScalar_literal hne hshown hc hblank line (column + 1)
    (offset + '|'.utf8Size) s
  refine ⟨line', ?_⟩
  have hsame : literalHead text ++ literalLines true (text ++ ending text) ++ c :: s =
      '|' :: (toldMargin (text.head?.any isSpaceOrBreak) ++ ((chompingOf text).sign ++ '\n' ::
        (literalLines true (text ++ ending text) ++ c :: s))) := by
    simp [literalHead_eq]
  rw [hsame, locate_cons rfl, Lexer.run_value rfl rfl (by decide) hcolumn,
    Lexer.take_bar rfl hcolumn rfl, Lexer.block_atValue hread, Option.bind_some]

end PaneLayout.Yaml
