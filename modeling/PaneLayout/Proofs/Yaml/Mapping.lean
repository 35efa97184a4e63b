import PaneLayout.Proofs.Yaml.Lines
import PaneLayout.Yaml.Value

set_option autoImplicit false

/-!
# Mappings written line by line

A text that consists of silent lines and of lines with a key and a value describes the mapping from
the keys to the values. How a value is written does not matter, as long as it is read as one scalar
where it stands.

## Main definitions

* `PaneLayout.Yaml.Row` — a key and the scalar that is its value.
* `PaneLayout.Yaml.ReadsAs` — what is written in a line is read as a scalar.
* `PaneLayout.Yaml.Flat` — a text of silent lines and of lines that hold a row.
* `PaneLayout.Yaml.EndsPlain` — a text before which a plain scalar ends.

## Main results

* `PaneLayout.Yaml.readsAs_plain` — a plain text in a line is read as it is.
* `PaneLayout.Yaml.Flat.run` — the tokens of a flat text.
* `PaneLayout.Yaml.Flat.document` — a flat text describes the mapping of its rows.
* `PaneLayout.Yaml.Document.record_rows` — the mapping is read row by row.
-/

namespace PaneLayout.Yaml

open Glyph (locate locate_cons locate_append locate_lineEnd char_mem_of_mem_locate)

/-- **Rows.** A key, and the scalar that is its value. -/
structure Row where
  key : List Char
  style : ScalarStyle
  text : List Char

namespace Row

/-- The tokens of a row. -/
def tokens (r : Row) : List Token := [.key, .scalar .plain r.key, .value, .scalar r.style r.text]

/-- Every row has four tokens. -/
theorem length_flatMap_tokens (rows : List Row) :
    (rows.flatMap tokens).length = 4 * rows.length := by
  induction rows with
  | nil => rfl
  | cons r rows ih =>
    rw [List.flatMap_cons, List.length_append, ih, tokens, List.length_cons]
    simp only [List.length_cons, List.length_nil]
    omega

/-- The nodes of a row. -/
def entry (r : Row) : Node × Node := (.scalar .none .plain r.key, .scalar .none r.style r.text)

/-- The tokens of some rows to the end of the mapping, which has been opened or not. -/
def allTokens (opened : Bool) (rows : List Row) : List Token :=
  if opened then rows.flatMap tokens ++ [.blockEnd]
  else if rows.isEmpty then []
  else .blockMappingStart :: (rows.flatMap tokens ++ [.blockEnd])

/-- The node that some rows describe; none if there are no rows. -/
def root (rows : List Row) : Option Node :=
  if rows.isEmpty then none else some (.mapping .none (rows.map entry))

end Row

/-- **Reading a value.** What is written in a line behind a key, before the lines `s`, is read as
one scalar, behind which those lines come next. -/
def ReadsAs (written s : List Char) (style : ScalarStyle) (text : List Char) : Prop :=
  ∀ (n : Nat) (found : List Token) (line column offset : Nat), column ≠ 0 → ∃ line',
    Lexer.run (n + 1) (.atValue found (locate line column offset (written ++ s))) =
      Lexer.run n (.atLine true (.scalar style text :: found) (locate line' 0 0 s))

/-- **Flat texts**: silent lines, and rows with the lines of their values. The last line may lack
its end. -/
inductive Flat : List Char → List Row → Prop where
  | last {g : List Char} : Silent g → Flat g []
  | silent {g e s : List Char} {rows : List Row} :
    Silent g → IsLineEnd e → Flat s rows → Flat (g ++ (e ++ s)) rows
  | row {r : Row} {written s : List Char} {rows : List Row} :
    IsKey r.key → ReadsAs written s r.style r.text → Flat s rows →
    Flat (r.key ++ ':' :: ' ' :: (written ++ s)) (r :: rows)

/-! ### The end of a plain scalar -/

/-- **Texts before which a plain scalar ends**: behind empty lines there is nothing, or something at
the margin. What the scalar passes over on the way is passed over anyhow. -/
def EndsPlain (s : List Char) : Prop :=
  ∀ (line : Nat) (gap : Gap), gap.isBroken = true → ∃ rest,
    plainScalar false 1 gap (locate line 0 0 s) = some ([], true, rest) ∧
      Lexer.skipGaps false false true rest = Lexer.skipGaps false false true (locate line 0 0 s)

/-- Spaces after a line break do not end a plain scalar. -/
theorem plainScalar_spaces {gs : List Glyph} (h : ∀ g ∈ gs, g.char = ' ') {gap : Gap}
    (hgap : gap.isBroken = true) (indent : Nat) (rest : List Glyph) :
    plainScalar false indent gap (gs ++ rest) = plainScalar false indent gap rest := by
  induction gs with
  | nil => rfl
  | cons g gs ih =>
    obtain ⟨hg, hgs⟩ := List.forall_mem_cons.1 h
    have hsame : gap.addBlank g.char = gap := by
      cases gap with
      | blanks text => cases hgap
      | breaks first more => rfl
    have hblank : g.isBlank = true := by rw [Glyph.isBlank, hg]; rfl
    rw [List.cons_append, plainScalar_blank hblank (.inr hg), hsame, ih hgs]

/-- A plain scalar ends before a line that begins at the margin. -/
theorem endsPlain_cons {c : Char} (hbreak : isBreak c = false) (hblank : isBlank c = false)
    (s : List Char) : EndsPlain (c :: s) := by
  intro line gap hgap
  rw [locate_cons hbreak]
  exact ⟨_, plainScalar_margin hbreak hblank hgap Nat.zero_lt_one, rfl⟩

/-- A plain scalar ends before an empty line if it ends before the next. -/
theorem EndsPlain.of_blank_line {s spaces e : List Char} (h : EndsPlain s)
    (hspaces : ∀ c ∈ spaces, c = ' ') (he : IsLineEnd e) : EndsPlain (spaces ++ (e ++ s)) := by
  intro line gap hgap
  have hunbroken := Silent.isBreak_eq_false (.inl hspaces)
  have hglyphs : ∀ g ∈ locate line 0 0 spaces, g.char = ' ' := fun g hg =>
    hspaces _ (char_mem_of_mem_locate hunbroken hg)
  obtain ⟨rest, hrest, hskip⟩ := h (line + 1) (gap.addBreak '\n') (by cases gap <;> rfl)
  refine ⟨rest, ?_, ?_⟩
  · rw [locate_append hunbroken, plainScalar_spaces hglyphs hgap, locate_lineEnd he,
      plainScalar_break rfl rfl, hrest]
  · rw [hskip, locate_append hunbroken, Lexer.skipGaps_spaces hglyphs, locate_lineEnd he,
      Lexer.skipGaps_lineFeed]

/-- A plain scalar ends before the end of the text, if only spaces stand before it. -/
theorem endsPlain_spaces {spaces : List Char} (hspaces : ∀ c ∈ spaces, c = ' ') :
    EndsPlain spaces := by
  intro line gap hgap
  have hunbroken := Silent.isBreak_eq_false (.inl hspaces)
  have hglyphs : ∀ g ∈ locate line 0 0 spaces, g.char = ' ' := fun g hg =>
    hspaces _ (char_mem_of_mem_locate hunbroken hg)
  refine ⟨[], ?_, ?_⟩
  · have hall := plainScalar_spaces hglyphs hgap 1 []
    rw [List.append_nil] at hall
    rw [hall, plainScalar, hgap]
  · have hall : Lexer.skipGaps false false true (locate line 0 0 spaces ++ []) =
        Lexer.skipGaps false false true [] := Lexer.skipGaps_spaces hglyphs
    rw [List.append_nil] at hall
    exact hall.symm

/-- **A plain scalar ends before a flat text.** -/
theorem Flat.endsPlain {s : List Char} {rows : List Row} (h : Flat s rows) : EndsPlain s := by
  induction h with
  | last hg =>
    rcases hg with hspaces | ⟨text, rfl, -⟩
    · exact endsPlain_spaces hspaces
    · exact endsPlain_cons rfl rfl text
  | silent hg he _ ih =>
    rcases hg with hspaces | ⟨text, rfl, -⟩
    · exact ih.of_blank_line hspaces he
    · exact endsPlain_cons rfl rfl _
  | @row r written s rows hkey _ _ _ =>
    obtain ⟨c, word, hword⟩ := List.exists_cons_of_ne_nil hkey.ne_nil
    have hc : c ∈ r.key := by rw [hword]; exact List.mem_cons_self
    have hends := endsPlain_cons (hkey.isBreak_eq_false hc) (hkey.isBlank_eq_false hc)
      (word ++ ':' :: ' ' :: (written ++ s))
    rwa [← List.cons_append, ← hword] at hends

/-! ### Plain values -/

/-- **Plain texts**: they stand in one line, with no spaces around them and without indicators. -/
structure PlainText (u : List Char) : Prop where
  ne_nil : u ≠ []
  line : ∀ c ∈ u, isBreak c = false ∧ c ≠ '\t'
  first : u.head? ≠ some ' '
  last : u.getLast? ≠ some ' '
  indicator : hasIndicator u = false

namespace PlainText

variable {c : Char} {w : List Char}

/-- A plain text begins with something else than a blank. -/
theorem isBlank_eq_false (h : PlainText (c :: w)) : isBlank c = false := by
  have hspace : c ≠ ' ' := fun hc => h.first (by rw [hc]; rfl)
  simp [isBlank, hspace, (h.line c List.mem_cons_self).2]

/-- A plain text does not begin with an indicator. -/
theorem isLeadingIndicator_eq_false (h : PlainText (c :: w)) : isLeadingIndicator c = false := by
  have hindicator := h.indicator
  simp only [hasIndicator, Bool.or_eq_false_iff] at hindicator
  exact hindicator.1.1.2

/-- A hyphen, a question mark or a colon at the start of a plain text is followed by text. -/
theorem atGap_eq_false (h : PlainText (c :: w)) (hc : c = '-' ∨ c = '?' ∨ c = ':')
    (line column offset : Nat) (tail : List Char) :
    Glyph.atGap (locate line column offset (w ++ tail)) = false := by
  have hindicator := h.indicator
  simp only [hasIndicator, Bool.or_eq_false_iff] at hindicator
  have hgap : beginsWithGap w = false := by
    rcases hc with rfl | rfl | rfl <;> simpa using hindicator.1.2
  cases w with
  | nil => cases hgap
  | cons d w =>
    simp only [beginsWithGap, Bool.or_eq_false_iff] at hgap
    rw [List.cons_append, Glyph.atGap_locate hgap.2, hgap.1]

/-- No character of a plain text is an indicator where it stands. -/
theorem hasIndicatorBehind_eq_false {u : List Char} (h : PlainText u) :
    hasIndicatorBehind ' ' u = false := by
  cases u with
  | nil => rfl
  | cons c w =>
    have hindicator := h.indicator
    simp only [hasIndicator, Bool.or_eq_false_iff] at hindicator
    obtain ⟨⟨⟨-, hleading⟩, hgap⟩, hbehind⟩ := hindicator
    have hsign : c ≠ '#' := by
      rintro rfl
      revert hleading
      decide
    have hcolon : (c == ':' && beginsWithGap w) = false := by
      by_cases hc : c = ':'
      · simpa [hc] using hgap
      · simp [hc]
    simp [hasIndicatorBehind, hsign, hcolon, hbehind]

end PlainText

/-- A plain scalar that is read for a value. -/
theorem Lexer.plain_atValue {g : Glyph} {s rest : List Glyph} {text : List Char} {broken : Bool}
    (h : plainScalar false 1 .none (g :: s) = some (text, broken, rest)) (found : List Token)
    (glyphs : List Glyph) : (Lexer.atValue found glyphs).plain g s =
      some ⟨.scalar .plain text :: found, [0], none, [], broken, rest⟩ := by
  have hread : plainScalar (Lexer.atValue found glyphs).inFlow
      ((Lexer.atValue found glyphs).indent + 1).toNat .none (g :: s) =
        some (text, broken, rest) := h
  have hnote : (Lexer.atValue found glyphs).noteKey g = some (Lexer.atValue found glyphs) := rfl
  rw [Lexer.plain, hnote, Option.bind_eq_bind, Option.bind_some, hread]
  rfl

/-- A plain text is taken for a plain scalar, and read on from its end. -/
theorem run_plain {u : List Char} (hu : PlainText u) (n : Nat) (found : List Token)
    (line column offset : Nat) (hcolumn : column ≠ 0) (tail : List Char) {broken : Bool}
    {rest : List Glyph}
    (htail : plainScalar false 1 .none
      (locate line (column + u.length) (offset + Glyph.byteCount u) tail) =
        some ([], broken, rest)) :
    Lexer.run (n + 1) (.atValue found (locate line column offset (u ++ tail))) =
      Lexer.run n ⟨.scalar .plain u :: found, [0], none, [], broken, rest⟩ := by
  have hread : plainScalar false 1 .none (locate line column offset (u ++ tail)) =
      some (u, broken, rest) := by
    rw [Gap.none, plainScalar_text hu.line hu.hasIndicatorBehind_eq_false (fun h => absurd rfl h)
      (fun _ => rfl) hu.last (.inl hcolumn), htail]
    simp
  obtain ⟨c, w, rfl⟩ := List.exists_cons_of_ne_nil hu.ne_nil
  have hbreak := (hu.line c List.mem_cons_self).1
  have hsign : c ≠ '#' := by
    rintro rfl
    exact absurd hu.isLeadingIndicator_eq_false (by decide)
  rw [List.cons_append, locate_cons hbreak] at hread ⊢
  rw [Lexer.run_value hbreak hu.isBlank_eq_false hsign hcolumn,
    Lexer.take_eq_plain (g := ⟨c, line, column, offset⟩) rfl
      (Glyph.atDocumentMark_eq_false (.inl hcolumn) _) hbreak
      hu.isBlank_eq_false hu.isLeadingIndicator_eq_false
      (fun hc => hu.atGap_eq_false hc line (column + 1) (offset + c.utf8Size) tail),
    Lexer.plain_atValue hread, Option.bind_some]

/-- **A plain text is read as it is,** up to the end of its line. -/
theorem readsAs_plain {u e s : List Char} (hu : PlainText u) (he : IsLineEnd e)
    (hs : EndsPlain s) : ReadsAs (u ++ e) s .plain u := by
  intro n found line column offset hcolumn
  obtain ⟨rest, hrest, hskip⟩ := hs (line + 1) (.breaks ['\n'] []) rfl
  refine ⟨line + 1, ?_⟩
  rw [List.append_assoc, run_plain hu n found line column offset hcolumn (e ++ s)]
  · exact Lexer.run_atLine_congr hskip n true _
  · rw [locate_lineEnd he, plainScalar_break rfl rfl]
    exact hrest

/-- A plain text is read as it is at the end of the text. -/
theorem readsAs_plain_last {u : List Char} (hu : PlainText u) : ReadsAs u [] .plain u := by
  intro n found line column offset hcolumn
  refine ⟨line, ?_⟩
  have hend : plainScalar false 1 .none
      (locate line (column + u.length) (offset + Glyph.byteCount u) []) =
        some ([], false, []) := by rw [Glyph.locate_nil]; rfl
  rw [run_plain hu n found line column offset hcolumn [] hend, Glyph.locate_nil]
  cases n with
  | zero => rfl
  | succ n =>
    rw [Lexer.run_end]
    simp [Lexer.run, Lexer.toToken, Lexer.skipGaps, Lexer.closeBlocks, Lexer.inFlow, Lexer.dropKey]

/-! ### The tokens of a flat text -/

/-- **The tokens of a flat text** are those of its rows.

**Proof sketch.** Induction on the text. A silent line is passed over, and a row takes three steps:
one for its key, one for the colon and one for the value. -/
theorem Flat.run {s : List Char} {rows : List Row} (h : Flat s rows) :
    ∀ (n : Nat) (opened : Bool) (found : List Token) (line : Nat),
      (locate line 0 0 s).length < n →
      Lexer.run n (.atLine opened found (locate line 0 0 s)) =
        some (found.reverse ++ Row.allTokens opened rows) := by
  induction h with
  | last hg =>
    intro n opened found line hn
    obtain ⟨n, rfl⟩ : ∃ m, n = m + 1 := ⟨n - 1, by omega⟩
    rw [Lexer.run_silent_last hg, Lexer.run_end]
    cases opened <;> rfl
  | @silent g e s rows hg he _ ih =>
    intro n opened found line hn
    rw [Lexer.run_silent hg he]
    refine ih n opened found (line + 1) (Nat.lt_of_le_of_lt ?_ hn)
    rw [← List.append_assoc]
    exact Glyph.length_locate_le_append _ _ _ _ _ _ (g ++ e) s
  | @row r written s rows hkey hreads _ ih =>
    intro n opened found line hn
    have hsize := hkey.length_locate_le line written s
    obtain ⟨n, rfl⟩ : ∃ m, n = m + 1 + 2 := ⟨n - 3, by omega⟩
    obtain ⟨line', hvalue⟩ := hreads n (Lexer.keyTokens opened r.key found) line (r.key.length + 2)
      (r.key.length + 2) (Nat.succ_ne_zero _)
    have hfew : (locate line' 0 0 s).length < n := by
      rw [Glyph.length_locate line' 0 0 line 0 0]
      omega
    rw [Lexer.run_key hkey, hvalue, ih n true _ line' hfew]
    cases opened <;> simp [Lexer.keyTokens, Row.allTokens, Row.tokens]

/-- **The tokens of a flat text,** from its start. -/
theorem Flat.tokens {s : List Char} {rows : List Row} (h : Flat s rows)
    (hallowed : s.all isAllowed = true) : Token.ofText? s = some (Row.allTokens false rows) := by
  rw [Token.ofText?, if_pos hallowed]
  exact h.run _ false [] 0 (Nat.lt_succ_self _)

/-! ### The document of a flat text -/

section Document

variable (handles : Handles) (anchors : List (List Char × Nat))

/-- The start of a mapping leads to its entries. -/
theorem node_mapping (steps : Nat) (ts : List Token) :
    node handles (steps + 1) true false ⟨anchors, .blockMappingStart :: ts⟩ =
      (blockEntries handles steps ⟨anchors, ts⟩).map
        fun (entries, c) => (.mapping .none entries, c) := rfl

/-- A row is an entry. -/
theorem blockEntries_row (r : Row) (steps : Nat) (ts : List Token) :
    blockEntries handles (steps + 3) ⟨anchors, r.tokens ++ ts⟩ =
      (blockEntries handles (steps + 2) ⟨anchors, ts⟩).bind
        fun found => some (r.entry :: found.1, found.2) := rfl

/-- **The entries of the mapping** are those of its rows, read to the end of the block. -/
theorem blockEntries_rows (rows : List Row) (steps : Nat) (hsteps : rows.length + 2 ≤ steps)
    (ts : List Token) :
    blockEntries handles steps ⟨anchors, rows.flatMap Row.tokens ++ .blockEnd :: ts⟩ =
      some (rows.map Row.entry, ⟨anchors, ts⟩) := by
  induction rows generalizing steps with
  | nil =>
    obtain ⟨steps, rfl⟩ : ∃ m, steps = m + 1 := ⟨steps - 1, by simp at hsteps; omega⟩
    simp [blockEntries, Cursor.before]
  | cons r rows ih =>
    rw [List.length_cons] at hsteps
    obtain ⟨steps, rfl⟩ : ∃ m, steps = m + 3 := ⟨steps - 3, by omega⟩
    rw [List.flatMap_cons, List.append_assoc, blockEntries_row, ih (steps + 2) (by omega),
      Option.bind_some, List.map_cons]

/-- **A flat text describes the mapping of its rows.** -/
theorem Flat.document {s : List Char} {rows : List Row} (h : Flat s rows)
    (hallowed : s.all isAllowed = true) : Document.ofText? s = some ⟨Row.root rows⟩ := by
  rw [Document.ofText?, h.tokens hallowed, Option.bind_some]
  cases rows with
  | nil => rfl
  | cons r rows =>
    have hsteps : (r :: rows).length + 2 ≤
        3 * (Row.allTokens false (r :: rows)).length + 4 := by
      have hlength := Row.length_flatMap_tokens (r :: rows)
      have hall : Row.allTokens false (r :: rows) =
        .blockMappingStart :: ((r :: rows).flatMap Row.tokens ++ [.blockEnd]) := rfl
      simp only [hall, List.length_cons, List.length_append, hlength]
      omega
    have hentries := blockEntries_rows ([] ++ standardHandles) [] (r :: rows)
      _ hsteps []
    have hnode := node_mapping ([] ++ standardHandles) []
      (3 * (Row.allTokens false (r :: rows)).length + 4)
      ((r :: rows).flatMap Row.tokens ++ [.blockEnd])
    rw [hentries] at hnode
    have hcontent : Document.content [] (Row.allTokens false (r :: rows)) =
        some (.mapping .none ((r :: rows).map Row.entry), []) := by
      rw [Document.content]
      exact congrArg (Option.map _) hnode
    have hopen : Document.ofTokens? (Row.allTokens false (r :: rows)) =
        (Document.content [] (Row.allTokens false (r :: rows))).bind Document.alone := rfl
    rw [hopen, hcontent]
    rfl

end Document

/-! ### Reading the rows -/

namespace Document

variable {α : Type} {field : Document → String → α → Node → Reading α} {step : α → Row → Option α}

/-- The entries of a document that consists of rows. -/
theorem entries_rows (rows : List Row) (left : Nat) :
    (entries ⟨Row.root rows⟩).run left = some (rows.map Row.entry, left) := by
  cases rows <;> rfl

/-- The key of a row is a text. -/
theorem text_key (d : Document) (r : Row) (left : Nat) :
    (d.text r.entry.1).run left = some (String.ofList r.key, left) := rfl

/-- **Rows are read one after the other,** if the reading of a field follows no alias.

**Proof sketch.** Induction on the rows. The number of aliases that may still be followed stays what
it is. -/
theorem record_rows
    (hfield : ∀ (d : Document) (found : α) (r : Row) (left : Nat),
      (field d (String.ofList r.key) found (.scalar .none r.style r.text)).run left =
        (step found r).map (·, left))
    (start : α) (rows : List Row) :
    record field start ⟨Row.root rows⟩ = rows.foldlM step start := by
  have hfold : ∀ (d : Document) (rows : List Row) (found : α) (left : Nat),
      (((rows.map Row.entry).foldlM
        (fun found entry => do field d (← d.text entry.1) found entry.2) found : Reading α)).run
          left = (rows.foldlM step found).map (·, left) := by
    intro d rows
    induction rows with
    | nil => intro found left; rfl
    | cons r rows ih =>
      intro found left
      have hread : (field d (String.ofList r.key) found r.entry.2).run left =
          (step found r).map (·, left) := hfield d found r left
      rw [List.map_cons, List.foldlM_cons, List.foldlM_cons, StateT.run_bind, StateT.run_bind,
        text_key, Option.bind_eq_bind, Option.bind_eq_bind, Option.bind_some, hread]
      cases step found r with
      | none => rfl
      | some found => exact ih found left
  rw [record, StateT.run_bind, entries_rows, Option.bind_eq_bind, Option.bind_some, hfold,
    Option.map_map]
  cases rows.foldlM step start <;> rfl

end Document

end PaneLayout.Yaml
