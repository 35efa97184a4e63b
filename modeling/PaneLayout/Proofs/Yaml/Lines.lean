import PaneLayout.Proofs.Json.Literal
import PaneLayout.Yaml.Lexer
import PaneLayout.Yaml.Printer

set_option autoImplicit false

/-!
# Lines of a text and steps of a lexer

A mapping at the outermost level is read line by line. Where a line begins, all that a lexer knows
is which tokens it has found and whether the mapping has been opened. Lines in which nothing is said
leave it at that; a line with a key and a colon leads it to the value.

## Main definitions

* `PaneLayout.Yaml.IsLineEnd` — the ends of lines.
* `PaneLayout.Yaml.Lexer.atLine`, `PaneLayout.Yaml.Lexer.atValue` — lexers where a line begins and
  where a value is due.
* `PaneLayout.Yaml.Silent` — what a line consists of in which nothing is said.
* `PaneLayout.Yaml.IsKey` — the words that are taken for keys here.

## Main results

* `PaneLayout.Yaml.Lexer.run_congr` — gaps before the next token do not matter.
* `PaneLayout.Yaml.Lexer.run_silent` — a silent line is passed over.
* `PaneLayout.Yaml.Lexer.run_key` — a key and its colon take two steps.
* `PaneLayout.Yaml.Lexer.run_end` — the end of the text closes the mapping.
-/

namespace PaneLayout.Yaml

/-! ### Places -/

/-- **The ends of lines**: a line feed, perhaps behind a carriage return. -/
def IsLineEnd (e : List Char) : Prop := e = ['\n'] ∨ e = ['\r', '\n']

namespace Glyph

variable {c : Char} {s : List Char} {line column offset : Nat}

@[simp] theorem locate_nil (line column offset : Nat) : locate line column offset [] = [] := by
  rw [locate]

/-- Behind a character that ends no line comes the next column. -/
theorem locate_cons (hc : Yaml.isBreak c = false) (line column offset : Nat) (s : List Char) :
    locate line column offset (c :: s) =
      ⟨c, line, column, offset⟩ :: locate line (column + 1) (offset + c.utf8Size) s := by
  have hcr : c ≠ '\r' ∧ c ≠ '\u0085' := by
    constructor <;> (rintro rfl; revert hc; decide)
  rw [locate]
  · simp [hcr, hc]
  · rintro s' ⟨rfl, -⟩
    exact absurd rfl hcr.1

/-- Behind a line break that stays what it is comes the next line. -/
theorem locate_break (hc : c = '\n' ∨ c = '\u2028' ∨ c = '\u2029') (line column offset : Nat)
    (s : List Char) : locate line column offset (c :: s) =
      ⟨c, line, column, offset⟩ :: locate (line + 1) 0 0 s := by
  have hcr : c ≠ '\r' ∧ c ≠ '\u0085' := by
    constructor <;> (rintro rfl; revert hc; decide)
  have hbreak : Yaml.isBreak c = true := by rcases hc with rfl | rfl | rfl <;> rfl
  rw [locate]
  · simp [hcr, hbreak]
  · rintro s' ⟨rfl, -⟩
    exact absurd rfl hcr.1

/-- Either end of a line is a line feed, with the next line behind it. -/
theorem locate_lineEnd {e : List Char} (he : IsLineEnd e) (line column offset : Nat)
    (s : List Char) : locate line column offset (e ++ s) =
      ⟨'\n', line, column, offset⟩ :: locate (line + 1) 0 0 s := by
  rcases he with rfl | rfl
  · exact locate_break (.inl rfl) line column offset s
  · simp [locate]

/-- The number of glyphs does not depend on where the text begins. -/
theorem length_locate (line column offset line' column' offset' : Nat) (s : List Char) :
    (locate line column offset s).length = (locate line' column' offset' s).length := by
  fun_induction locate line column offset s generalizing line' column' offset' with
  | case1 => simp
  | case2 line column offset s ih =>
    rw [locate, List.length_cons, List.length_cons, ih]
  | case3 line column offset c s hpair hcr ih =>
    rw [locate, if_pos hcr, List.length_cons, List.length_cons, ih]
    exact hpair
  | case4 line column offset c s hpair hcr hbreak ih =>
    rw [locate, if_neg hcr, if_pos hbreak, List.length_cons, List.length_cons, ih]
    exact hpair
  | case5 line column offset c s hpair hcr hbreak ih =>
    rw [locate, if_neg hcr, if_neg hbreak, List.length_cons, List.length_cons, ih]
    exact hpair

/-- One more character at the start of a text makes no fewer glyphs. -/
theorem length_locate_le_cons (line column offset line' column' offset' : Nat) (c : Char)
    (s : List Char) : (locate line column offset s).length ≤
      (locate line' column' offset' (c :: s)).length := by
  by_cases hpair : c = '\r' ∧ ∃ s', s = '\n' :: s'
  · -- A carriage return before a line feed is the only character without a glyph of its own.
    obtain ⟨rfl, s', rfl⟩ := hpair
    refine Nat.le_of_eq ?_
    rw [locate_break (.inl rfl), locate, List.length_cons, List.length_cons,
      length_locate (line + 1) 0 0 (line' + 1) 0 0]
  · have hmore : ∃ g line₁ column₁ offset₁, locate line' column' offset' (c :: s) =
        g :: locate line₁ column₁ offset₁ s := by
      rw [locate]
      · split
        · exact ⟨_, _, _, _, rfl⟩
        · split
          · exact ⟨_, _, _, _, rfl⟩
          · exact ⟨_, _, _, _, rfl⟩
      · rintro s' rfl rfl
        exact hpair ⟨rfl, s', rfl⟩
    obtain ⟨g, line₁, column₁, offset₁, hmore⟩ := hmore
    rw [hmore, List.length_cons, length_locate line column offset line₁ column₁ offset₁]
    exact Nat.le_succ _

/-- A text has no more glyphs than one that ends with it. -/
theorem length_locate_le_append (line column offset line' column' offset' : Nat)
    (before s : List Char) : (locate line column offset s).length ≤
      (locate line' column' offset' (before ++ s)).length := by
  induction before generalizing line' column' offset' with
  | nil => exact Nat.le_of_eq (length_locate line column offset line' column' offset' s)
  | cons c before ih =>
    exact Nat.le_trans (ih line column offset) (length_locate_le_cons _ _ _ _ _ _ c (before ++ s))

/-- A text without a line break is what its glyphs show. -/
theorem chars_locate {u : List Char} (hu : ∀ c ∈ u, Yaml.isBreak c = false)
    (line column offset : Nat) : chars (locate line column offset u) = u := by
  induction u generalizing column offset with
  | nil => simp [chars]
  | cons c u ih =>
    obtain ⟨hc, hu⟩ := List.forall_mem_cons.1 hu
    rw [locate_cons hc, chars, List.map_cons]
    exact congrArg _ (ih hu _ _)

/-- The glyphs of a text without a line break show its characters. -/
theorem char_mem_of_mem_locate {u : List Char} (hu : ∀ c ∈ u, Yaml.isBreak c = false)
    {line column offset : Nat} {g : Glyph} (hg : g ∈ locate line column offset u) : g.char ∈ u := by
  have hmem : g.char ∈ chars (locate line column offset u) := List.mem_map_of_mem hg
  rwa [chars_locate hu] at hmem

/-- Text that begins behind the margin of its line stays behind it. -/
theorem column_ne_zero_of_mem_locate {u : List Char} (hu : ∀ c ∈ u, Yaml.isBreak c = false)
    {line column offset : Nat} (hcolumn : column ≠ 0) {g : Glyph}
    (hg : g ∈ locate line column offset u) : g.column ≠ 0 := by
  induction u generalizing column offset with
  | nil => simp at hg
  | cons c u ih =>
    obtain ⟨hc, hu⟩ := List.forall_mem_cons.1 hu
    rw [locate_cons hc, List.mem_cons] at hg
    rcases hg with rfl | hg
    · exact hcolumn
    · exact ih hu (Nat.succ_ne_zero column) hg

/-- A text without a line break has as many glyphs as characters. -/
theorem length_locate_of_unbroken {u : List Char} (hu : ∀ c ∈ u, Yaml.isBreak c = false)
    (line column offset : Nat) : (locate line column offset u).length = u.length := by
  induction u generalizing column offset with
  | nil => simp
  | cons c u ih =>
    obtain ⟨hc, hu⟩ := List.forall_mem_cons.1 hu
    rw [locate_cons hc, List.length_cons, List.length_cons, ih hu]

/-- The bytes that encode a text. -/
def byteCount : List Char → Nat
  | [] => 0
  | c :: s => c.utf8Size + byteCount s

/-- Behind a text without a line break its line goes on. -/
theorem locate_append {u : List Char} (hu : ∀ c ∈ u, Yaml.isBreak c = false)
    (line column offset : Nat) (s : List Char) : locate line column offset (u ++ s) =
      locate line column offset u ++
        locate line (column + u.length) (offset + byteCount u) s := by
  induction u generalizing column offset with
  | nil => simp [byteCount]
  | cons c u ih =>
    obtain ⟨hc, hu⟩ := List.forall_mem_cons.1 hu
    rw [List.cons_append, locate_cons hc, locate_cons hc, ih hu, List.cons_append]
    simp [byteCount, Nat.add_assoc, Nat.add_comm 1]

end Glyph

namespace Glyph

/-- A document begins or ends at the margin only, with a hyphen or a dot. -/
theorem atDocumentMark_eq_false {g : Glyph} (hg : g.column ≠ 0 ∨ (g.char ≠ '-' ∧ g.char ≠ '.'))
    (s : List Glyph) : atDocumentMark (g :: s) = false := by
  match s with
  | [] => rfl
  | [_] => rfl
  | b :: c :: s =>
    rw [atDocumentMark]
    rcases hg with hcolumn | ⟨hhyphen, hdot⟩
    · simp [hcolumn]
    · simp [hhyphen, hdot]

/-- Where text goes on there is no gap, unless it goes on with a blank. -/
theorem atGap_locate {c : Char} (hc : Yaml.isBreak c = false) (line column offset : Nat)
    (s : List Char) : atGap (locate line column offset (c :: s)) = Yaml.isBlank c := by
  rw [locate_cons hc, atGap, isBlank, isBreak, hc, Bool.or_false]

end Glyph

/-! ### Plain scalars -/

section Plain

variable {indent : Nat} {gap : Gap} {g : Glyph} {s : List Glyph}

/-- A blank widens the gap; only spaces may indent a line. -/
theorem plainScalar_blank (hg : g.isBlank = true) (htab : gap.isBroken = false ∨ g.char = ' ') :
    plainScalar false indent gap (g :: s) = plainScalar false indent (gap.addBlank g.char) s := by
  have htab' : (gap.isBroken && g.char == '\t' && decide (g.column < indent)) = false := by
    rcases htab with h | h <;> simp [h]
  cases s <;> simp [plainScalar, hg, htab']

/-- A line break widens the gap. -/
theorem plainScalar_break (hg : g.isBreak = true) (hblank : g.isBlank = false) :
    plainScalar false indent gap (g :: s) = plainScalar false indent (gap.addBreak g.char) s := by
  cases s <;> simp [plainScalar, hg, hblank]

/-- A line that begins at the margin ends a scalar that stands further in. -/
theorem plainScalar_margin (hbreak : g.isBreak = false) (hblank : g.isBlank = false)
    (hgap : gap.isBroken = true) (hcolumn : g.column < indent) :
    plainScalar false indent gap (g :: s) = some ([], true, g :: s) := by
  cases s <;> simp [plainScalar, hbreak, hblank, hgap, hcolumn]

/-- A colon before a gap ends a scalar. -/
theorem plainScalar_colon (hg : g.char = ':') (hgap : Glyph.atGap s = true)
    (hbroken : gap.isBroken = false) :
    plainScalar false indent gap (g :: s) = some ([], false, g :: s) := by
  have hbreak : g.isBreak = false := by rw [Glyph.isBreak, hg]; rfl
  have hblank : g.isBlank = false := by rw [Glyph.isBlank, hg]; rfl
  have hmark : Glyph.atDocumentMark (g :: s) = false :=
    Glyph.atDocumentMark_eq_false (.inr (by rw [hg]; decide)) s
  cases s <;> simp [plainScalar, hbreak, hblank, hg, hgap, hbroken, hmark]

/-- Any other character belongs to the scalar, with the gap before it. -/
theorem plainScalar_char (hbreak : g.isBreak = false) (hblank : g.isBlank = false)
    (hgap : gap.isBroken = false) (hmark : Glyph.atDocumentMark (g :: s) = false)
    (hsign : gap ≠ .none → g.char ≠ '#') (hcolon : g.char = ':' → Glyph.atGap s = false) :
    plainScalar false indent gap (g :: s) = (plainScalar false indent .none s).map
      fun (text, broken, rest) => (gap.fold ++ g.char :: text, broken, rest) := by
  have hsign' : (gap != .none && g.char == '#') = false := by
    by_cases h : gap = .none
    · simp [h]
    · simp [hsign h]
  have hcolon' : (g.char == ':' && Glyph.atGap s) = false := by
    by_cases h : g.char = ':'
    · simp [hcolon h]
    · simp [h]
  cases s <;> simp [plainScalar, hbreak, hblank, hgap, hmark, hsign', hcolon']

/-- **A text within a line is read to its end**, if it holds no indicator and does not end in a
space. The scalar goes on with what stands behind the text.

**Proof sketch.** Induction on the text. Spaces are kept until the next character, and no character
ends the scalar, since it would be an indicator behind the one before it. -/
theorem plainScalar_text {u b : List Char} {before : Char} {column : Nat}
    (hline : ∀ c ∈ u, Yaml.isBreak c = false ∧ c ≠ '\t')
    (hindicator : hasIndicatorBehind before u = false) (hb : b ≠ [] → before = ' ')
    (hend : u = [] → b = []) (hlast : u.getLast? ≠ some ' ')
    (hmark : column ≠ 0 ∨ ∀ c ∈ u.head?, c ≠ '-' ∧ c ≠ '.') (line offset : Nat)
    (tail : List Char) :
    plainScalar false indent (.blanks b) (Glyph.locate line column offset (u ++ tail)) =
      (plainScalar false indent .none (Glyph.locate line (column + u.length)
        (offset + Glyph.byteCount u) tail)).map
        fun (text, broken, rest) => (b ++ u ++ text, broken, rest) := by
  induction u generalizing b before column offset with
  | nil =>
    obtain rfl := hend rfl
    simp [Glyph.byteCount, Gap.none]
  | cons c u ih =>
    obtain ⟨⟨hbreak, htab⟩, hrest⟩ := List.forall_mem_cons.1 hline
    simp only [hasIndicatorBehind, Bool.or_eq_false_iff] at hindicator
    obtain ⟨⟨hcolon, hsign⟩, hindicator⟩ := hindicator
    have hlast' : u.getLast? ≠ some ' ' := by
      cases u with
      | nil => simp
      | cons d u => simpa using hlast
    rw [List.cons_append, Glyph.locate_cons hbreak]
    by_cases hspace : c = ' '
    · subst hspace
      have hmore : u = [] → b ++ [' '] = [] := by
        rintro rfl
        simp at hlast
      rw [plainScalar_blank rfl (.inl rfl), Gap.addBlank,
        ih hrest hindicator (fun _ => rfl) hmore hlast' (.inl (Nat.succ_ne_zero column))]
      simp [Glyph.byteCount, Nat.add_assoc, Nat.add_comm 1]
    · have hblank : isBlank c = false := by simp [isBlank, hspace, htab]
      have hmark' : ∀ s, Glyph.atDocumentMark (⟨c, line, column, offset⟩ :: s) = false :=
        Glyph.atDocumentMark_eq_false (hmark.imp_right fun h => h c rfl)
      have hgap : c = ':' → Glyph.atGap (Glyph.locate line (column + 1) (offset + c.utf8Size)
          (u ++ tail)) = false := by
        rintro rfl
        cases u with
        | nil => simp [beginsWithGap] at hcolon
        | cons d u =>
          rw [List.cons_append, Glyph.atGap_locate (hrest d List.mem_cons_self).1]
          simp [beginsWithGap] at hcolon
          exact hcolon.1
      have hsign' : Gap.blanks b ≠ .none → c ≠ '#' := by
        rintro hne rfl
        have hbefore : before = ' ' := hb fun h => hne (by rw [h]; rfl)
        simp [hbefore, isBlank] at hsign
      rw [plainScalar_char (g := ⟨c, line, column, offset⟩) hbreak hblank rfl (hmark' _) hsign'
          hgap,
        Gap.none, ih hrest hindicator (fun h => absurd rfl h) (fun _ => rfl) hlast'
          (.inl (Nat.succ_ne_zero column))]
      simp [Glyph.byteCount, Gap.none, Nat.add_assoc, Nat.add_comm 1, Gap.fold, Function.comp_def]

end Plain

/-- **Silent lines**: spaces alone, or a comment at the margin. -/
def Silent (g : List Char) : Prop :=
  (∀ c ∈ g, c = ' ') ∨ ∃ comment, g = '#' :: comment ∧ ∀ c ∈ comment, isBreak c = false

/-- There is no line break in a silent line. -/
theorem Silent.isBreak_eq_false {g : List Char} (h : Silent g) : ∀ c ∈ g, isBreak c = false := by
  rcases h with h | ⟨comment, rfl, h⟩
  · intro c hc
    rw [h c hc]
    rfl
  · exact List.forall_mem_cons.2 ⟨rfl, h⟩

/-! ### Steps of a lexer -/

namespace Lexer

open Glyph (locate locate_cons locate_append locate_lineEnd char_mem_of_mem_locate)

/-- **Gaps do not matter**: lexers that are at the same place once the gaps are passed find the same
tokens. -/
theorem run_congr {l l' : Lexer} (h : l.toToken = l'.toToken) (n : Nat) : run n l = run n l' := by
  cases n with
  | zero => rfl
  | succ n => rw [run, run, h]

/-! ### Gaps -/

section Gaps

variable {inFlow comment allowed : Bool} {gs rest : List Glyph}

/-- Spaces are passed over. -/
theorem skipGaps_spaces (h : ∀ g ∈ gs, g.char = ' ') :
    skipGaps inFlow comment allowed (gs ++ rest) = skipGaps inFlow comment allowed rest := by
  induction gs with
  | nil => rfl
  | cons g gs ih =>
    obtain ⟨hg, hgs⟩ := List.forall_mem_cons.1 h
    have hbreak : g.isBreak = false := by rw [Glyph.isBreak, hg]; rfl
    rw [List.cons_append, skipGaps]
    simp [hbreak, hg, ih hgs]

/-- A comment that is open is passed over. -/
theorem skipGaps_comment (h : ∀ g ∈ gs, g.isBreak = false) :
    skipGaps inFlow true allowed (gs ++ rest) = skipGaps inFlow true allowed rest := by
  induction gs with
  | nil => rfl
  | cons g gs ih =>
    obtain ⟨hg, hgs⟩ := List.forall_mem_cons.1 h
    rw [List.cons_append, skipGaps]
    simp [hg, ih hgs]

/-- Behind a line feed a key may begin. -/
theorem skipGaps_lineFeed (line column offset : Nat) :
    skipGaps false comment allowed (⟨'\n', line, column, offset⟩ :: rest) =
      skipGaps false false true rest := by
  rw [skipGaps]
  simp [Glyph.isBreak, Yaml.isBreak]

end Gaps

/-- **A lexer where a line begins.** It has found some tokens, and the mapping is open or not. -/
def atLine (opened : Bool) (found : List Token) (rest : List Glyph) : Lexer :=
  ⟨found, if opened then [0] else [], none, [], true, rest⟩

/-- **A lexer where a value is due,** in the mapping. -/
def atValue (found : List Token) (rest : List Glyph) : Lexer :=
  ⟨found, [0], none, [], false, rest⟩

/-- What is passed over where a line begins does not matter. -/
theorem run_atLine_congr {rest rest' : List Glyph}
    (h : skipGaps false false true rest = skipGaps false false true rest') (n : Nat)
    (opened : Bool) (found : List Token) :
    run n (atLine opened found rest) = run n (atLine opened found rest') := by
  refine run_congr ?_ n
  simp [toToken, atLine, inFlow, h]

/-- What stands in a silent line is passed over, and a comment may then be open. -/
theorem exists_skipGaps_silent {g : List Char} (hg : Silent g) (line offset : Nat)
    (s : List Char) : ∃ comment column offset',
      skipGaps false false true (locate line 0 offset (g ++ s)) =
        skipGaps false comment true (locate line column offset' s) := by
  rw [locate_append hg.isBreak_eq_false]
  rcases hg with hspaces | ⟨text, rfl, htext⟩
  · refine ⟨false, _, _, skipGaps_spaces fun h hh => hspaces _ (char_mem_of_mem_locate ?_ hh)⟩
    exact Silent.isBreak_eq_false (.inl hspaces)
  · have hopened : ∀ rest, skipGaps false false true (⟨'#', line, 0, offset⟩ :: rest) =
        skipGaps false true true rest := fun rest => by
      rw [skipGaps]
      rfl
    refine ⟨true, 0 + ('#' :: text).length, offset + Glyph.byteCount ('#' :: text), ?_⟩
    rw [locate_cons rfl, List.cons_append, hopened]
    exact skipGaps_comment fun h hh => htext _ (char_mem_of_mem_locate htext hh)

/-- **A silent line is passed over.** -/
theorem run_silent {g e : List Char} (hg : Silent g) (he : IsLineEnd e) (n : Nat) (opened : Bool)
    (found : List Token) (line : Nat) (s : List Char) :
    run n (atLine opened found (locate line 0 0 (g ++ (e ++ s)))) =
      run n (atLine opened found (locate (line + 1) 0 0 s)) := by
  refine run_atLine_congr ?_ n opened found
  obtain ⟨comment, column, offset, hskip⟩ := exists_skipGaps_silent hg line 0 (e ++ s)
  rw [hskip, locate_lineEnd he, skipGaps_lineFeed]

/-! ### Keys -/

/-- No possible key is out of reach if there is none. -/
theorem dropStale_of_none {l : Lexer} (hpossible : l.possible = none) (haround : l.around = [])
    (g : Glyph) : l.dropStale g = some l := by
  obtain ⟨found, blocks, possible, around, keyAllowed, rest⟩ := l
  obtain rfl : possible = none := hpossible
  obtain rfl : around = [] := haround
  rfl

/-- A block at the margin stays open. -/
theorem closeBlocks_of_margin {l : Lexer} (h : ∀ b ∈ l.blocks, b = 0) (column : Nat) :
    l.closeBlocks column = l := by
  have hnone : l.blocks.takeWhile (fun (b : Nat) => decide ((column : Int) < b)) = [] := by
    cases hblocks : l.blocks with
    | nil => rfl
    | cons b bs =>
      have hb : b = 0 := h b (by rw [hblocks]; exact List.mem_cons_self)
      rw [hb, List.takeWhile_cons_of_neg (by simp)]
  rw [closeBlocks, hnone]
  simp

/-- **The first character of a plain scalar.** It is no indicator, or one that is followed by
something else than a gap. -/
theorem take_eq_plain {g : Glyph} {s : List Glyph} {l : Lexer} (hflow : l.inFlow = false)
    (hmark : Glyph.atDocumentMark (g :: s) = false) (hbreak : g.isBreak = false)
    (hblank : g.isBlank = false) (hleading : isLeadingIndicator g.char = false)
    (hgap : g.char = '-' ∨ g.char = '?' ∨ g.char = ':' → Glyph.atGap s = false) :
    l.take g s = l.plain g s := by
  simp only [isLeadingIndicator, List.contains_eq_mem, List.mem_cons, List.not_mem_nil, or_false,
    decide_eq_false_iff_not, not_or] at hleading
  obtain ⟨hnumber, hcomma, hl, hr, hl', hr', hand, hstar, hmarked, hbar, hfold, hsingle, hdouble,
    hpercent, hat, htick⟩ := hleading
  have hhyphen : ¬ (g.char = '-' ∧ Glyph.atGap s = true) := fun h => by
    simp [hgap (.inl h.1)] at h
  have hquestion : ¬ (g.char = '?' ∧ Glyph.atGap s = true) := fun h => by
    simp [hgap (.inr (.inl h.1))] at h
  have hcolon : ¬ (g.char = ':' ∧ Glyph.atGap s = true) := fun h => by
    simp [hgap (.inr (.inr h.1))] at h
  have hplain : beginsPlain false g s = true := by
    by_cases hspecial : g.char = '-' ∨ g.char = '?' ∨ g.char = ':'
    · have hs := hgap hspecial
      have hhead : s.head?.any Glyph.isBlank = false := by
        cases s with
        | nil => rfl
        | cons a s =>
          simp only [Glyph.atGap, Bool.or_eq_false_iff] at hs
          simpa using hs.1
      rcases hspecial with h | h | h <;> simp [beginsPlain, h, hs, hhead]
    · obtain ⟨h₁, h₂, h₃⟩ : g.char ≠ '-' ∧ g.char ≠ '?' ∧ g.char ≠ ':' := by
        simpa only [not_or] using hspecial
      have hindicator : isIndicator g.char = false := by
        simp [isIndicator, h₁, h₂, h₃, hnumber, hcomma, hl, hr, hl', hr', hand, hstar, hmarked,
          hbar, hfold, hsingle, hdouble, hpercent, hat, htick]
      simp [beginsPlain, hbreak, hblank, hindicator]
  simp [take, hmark, hcomma, hl, hr, hl', hr', hand, hstar, hmarked, hbar, hfold, hsingle, hdouble,
    hpercent, hhyphen, hquestion, hcolon, hplain, hflow]

/-- A silent line at the end of the text is passed over as well. -/
theorem run_silent_last {g : List Char} (hg : Silent g) (n : Nat) (opened : Bool)
    (found : List Token) (line : Nat) :
    run n (atLine opened found (locate line 0 0 g)) = run n (atLine opened found []) := by
  refine run_atLine_congr ?_ n opened found
  obtain ⟨comment, column, offset, hskip⟩ := exists_skipGaps_silent hg line 0 []
  rw [List.append_nil, Glyph.locate_nil, skipGaps] at hskip
  rw [hskip, skipGaps]

/-- **The end of the text** closes the mapping, if it is open. -/
theorem run_end (n : Nat) (opened : Bool) (found : List Token) :
    run (n + 1) (atLine opened found []) =
      some (found.reverse ++ if opened then [.blockEnd] else []) := by
  cases opened <;> simp [run, toToken, atLine, skipGaps, closeBlocks, inFlow, dropKey]

end Lexer

/-- **Keys**: short words of letters and underscores. -/
structure IsKey (key : List Char) : Prop where
  ne_nil : key ≠ []
  letter : ∀ c ∈ key, c.isAlpha = true ∨ c = '_'
  short : key.length ≤ Lexer.keyLimit

namespace IsKey

variable {key : List Char} {c : Char}

/-- What is no letter does not stand in a key. -/
theorem ne_of_mem (h : IsKey key) (hc : c ∈ key) {d : Char}
    (hd : d.isAlpha = false ∧ d ≠ '_') : c ≠ d := by
  rintro rfl
  rcases h.letter c hc with hletter | rfl
  · rw [hd.1] at hletter
    cases hletter
  · exact hd.2 rfl

/-- A key stands within a line. -/
theorem isBreak_eq_false (h : IsKey key) (hc : c ∈ key) : isBreak c = false := by
  have hne := fun d hd => h.ne_of_mem hc (d := d) hd
  simp only [isBreak, Bool.or_eq_false_iff, beq_eq_false_iff_ne]
  exact ⟨⟨⟨⟨hne _ (by decide), hne _ (by decide)⟩, hne _ (by decide)⟩, hne _ (by decide)⟩,
    hne _ (by decide)⟩

/-- There is no blank in a key. -/
theorem isBlank_eq_false (h : IsKey key) (hc : c ∈ key) : isBlank c = false := by
  simp [isBlank, h.ne_of_mem hc]

/-- There is no indicator in a key. -/
theorem hasIndicatorBehind_eq_false (h : ∀ c ∈ key, c ≠ ':' ∧ c ≠ '#') (before : Char) :
    hasIndicatorBehind before key = false := by
  induction key generalizing before with
  | nil => rfl
  | cons c key ih =>
    obtain ⟨⟨hcolon, hsign⟩, hkey⟩ := List.forall_mem_cons.1 h
    simp [hasIndicatorBehind, hcolon, hsign, ih hkey]

/-- Every character of a key is one byte. -/
theorem byteCount_eq (h : ∀ c ∈ key, c.isAlpha = true ∨ c = '_') :
    Glyph.byteCount key = key.length := by
  induction key with
  | nil => rfl
  | cons c key ih =>
    obtain ⟨hc, hkey⟩ := List.forall_mem_cons.1 h
    have hsize : c.utf8Size = 1 := by
      rw [Char.utf8Size_eq_one_iff, UInt32.le_iff_toNat_le]
      rcases hc with hletter | rfl
      · have hcase : c.val ≤ 'Z'.val ∨ c.val ≤ 'z'.val :=
          (Bool.or_eq_true_iff.1 hletter).imp (fun h => (of_decide_eq_true h).2)
            fun h => of_decide_eq_true (Bool.and_eq_true_iff.1 h).2
        simp only [UInt32.le_iff_toNat_le] at hcase
        have hbounds : 'Z'.val.toNat = 90 ∧ 'z'.val.toNat = 122 ∧ (127 : UInt32).toNat = 127 :=
          ⟨rfl, rfl, rfl⟩
        omega
      · decide
    rw [Glyph.byteCount, hsize, ih hkey, List.length_cons, Nat.add_comm]

/-- A key, its colon and a space are three glyphs at least. -/
theorem length_locate_le (h : IsKey key) (line : Nat) (written s : List Char) :
    (Glyph.locate line 0 0 s).length + 3 ≤
      (Glyph.locate line 0 0 (key ++ ':' :: ' ' :: (written ++ s))).length := by
  have hunbroken : ∀ c ∈ key, isBreak c = false := fun c hc => h.isBreak_eq_false hc
  have hlong := List.length_pos_iff.2 h.ne_nil
  have hrest := Glyph.length_locate_le_append line 0 0 line (0 + key.length + 1 + 1)
    (0 + Glyph.byteCount key + ':'.utf8Size + ' '.utf8Size) written s
  rw [Glyph.locate_append hunbroken, List.length_append,
    Glyph.length_locate_of_unbroken hunbroken, Glyph.locate_cons rfl, Glyph.locate_cons rfl,
    List.length_cons, List.length_cons]
  omega

end IsKey

namespace Lexer

open Glyph (locate locate_cons locate_append locate_lineEnd char_mem_of_mem_locate)

/-- The tokens of a key and its colon, the last one first. The first key opens the mapping. -/
def keyTokens (opened : Bool) (key : List Char) (found : List Token) : List Token :=
  .value :: .scalar .plain key :: .key :: if opened then found else .blockMappingStart :: found

/-- A character that is no gap is not passed over. -/
theorem skipGaps_of_char {g : Glyph} (hbreak : g.isBreak = false) (hblank : g.isBlank = false)
    (hsign : g.char ≠ '#') (hmark : g.char = byteOrderMark → g.column ≠ 0) (inFlow allowed : Bool)
    (s : List Glyph) : skipGaps inFlow false allowed (g :: s) = (allowed, g :: s) := by
  simp only [Glyph.isBlank, isBlank, Bool.or_eq_false_iff, beq_eq_false_iff_ne] at hblank
  have hmark' : (g.char == byteOrderMark && g.column == 0) = false := by
    by_cases h : g.char = byteOrderMark
    · simp [hmark h]
    · simp [h]
  rw [skipGaps]
  simp [hbreak, hblank.1, hblank.2, hsign, hmark']

/-- **A step** where no gap comes next, in a mapping at the margin. -/
theorem run_take {l : Lexer} {g : Glyph} {s : List Glyph} (hrest : l.rest = g :: s)
    (hbreak : g.isBreak = false) (hblank : g.isBlank = false) (hsign : g.char ≠ '#')
    (hmark : g.char = byteOrderMark → g.column ≠ 0) (hstale : l.dropStale g = some l)
    (hblocks : ∀ b ∈ l.blocks, b = 0) (n : Nat) : run (n + 1) l = (l.take g s).bind (run n) := by
  have hsame : l.toToken = l := by
    rw [toToken, hrest, skipGaps_of_char hbreak hblank hsign hmark, ← hrest]
  have hnext : l.next g s = l.take g s := by
    rw [next, hstale, Option.bind_eq_bind, Option.bind_some, closeBlocks_of_margin hblocks]
  rw [run, hsame]
  simp only [hrest, hnext]

/-- The block of the mapping begins at the margin. -/
theorem eq_zero_of_mem_opened {opened : Bool} :
    ∀ b ∈ (if opened then [0] else [] : List Nat), b = 0 := by
  cases opened <;> simp

/-- A key is read up to its colon. -/
theorem plainScalar_key {key : List Char} (hkey : IsKey key) (indent line : Nat) (s : List Char) :
    plainScalar false indent .none (locate line 0 0 (key ++ ':' :: ' ' :: s)) =
      some (key, false, locate line key.length key.length (':' :: ' ' :: s)) := by
  have hbytes := IsKey.byteCount_eq hkey.letter
  have hne := fun c hc d hd => hkey.ne_of_mem (c := c) hc (d := d) hd
  have hlast : key.getLast? ≠ some ' ' := fun h =>
    hne ' ' (List.mem_of_getLast? h) ' ' (by decide) rfl
  have hfirst : ∀ c ∈ key.head?, c ≠ '-' ∧ c ≠ '.' := fun c hc =>
    ⟨hne c (List.mem_of_mem_head? hc) '-' (by decide),
      hne c (List.mem_of_mem_head? hc) '.' (by decide)⟩
  rw [Gap.none, plainScalar_text
    (fun c hc => ⟨hkey.isBreak_eq_false hc, hne c hc '\t' (by decide)⟩)
    (IsKey.hasIndicatorBehind_eq_false
      (fun c hc => ⟨hne c hc ':' (by decide), hne c hc '#' (by decide)⟩) ' ')
    (fun h => absurd rfl h) (fun _ => rfl) hlast (.inr hfirst), hbytes, Nat.zero_add,
    locate_cons rfl, plainScalar_colon rfl (Glyph.atGap_locate rfl _ _ _ s) rfl]
  simp

/-- **The first step of a key** finds a scalar, and notes that it may be a key. -/
theorem run_keyWord {key : List Char} (hkey : IsKey key) (n : Nat) (opened : Bool)
    (found : List Token) (line : Nat) (s : List Char) :
    ∃ required g, g.line = line ∧ g.column = 0 ∧ g.offset = 0 ∧
      run (n + 1) (atLine opened found (locate line 0 0 (key ++ ':' :: ' ' :: s))) =
        run n ⟨.scalar .plain key :: found, if opened then [0] else [],
          some ⟨required, found.length, g⟩, [], false,
          locate line key.length key.length (':' :: ' ' :: s)⟩ := by
  have hread := fun indent => plainScalar_key hkey indent line s
  generalize hl : locate line key.length key.length (':' :: ' ' :: s) = behind at hread ⊢
  obtain ⟨c, word, rfl⟩ := List.exists_cons_of_ne_nil hkey.ne_nil
  have hc := List.mem_cons_self (a := c) (l := word)
  have hne := fun d hd => hkey.ne_of_mem hc (d := d) hd
  have hbreak := hkey.isBreak_eq_false hc
  have hblank := hkey.isBlank_eq_false hc
  rw [List.cons_append, locate_cons hbreak] at hread ⊢
  generalize locate line (0 + 1) (0 + c.utf8Size) (word ++ ':' :: ' ' :: s) = rest at hread ⊢
  let g : Glyph := ⟨c, line, 0, 0⟩
  let l := atLine opened found (g :: rest)
  have hleading : isLeadingIndicator c = false := by
    rw [isLeadingIndicator, List.contains_eq_mem, decide_eq_false_iff_not]
    exact fun h => hne c (forall_mem_of_all (p := fun d => d.isAlpha = false ∧ d ≠ '_')
      (by decide) c h) rfl
  have htake : l.take g rest = l.plain g rest := by
    refine take_eq_plain rfl (Glyph.atDocumentMark_eq_false (.inr ?_) rest) hbreak hblank
      hleading ?_
    · exact ⟨hne '-' (by decide), hne '.' (by decide)⟩
    · rintro (h | h | h)
      · exact absurd h (hne '-' (by decide))
      · exact absurd h (hne '?' (by decide))
      · exact absurd h (hne ':' (by decide))
  have hplain : l.plain g rest = some ⟨.scalar .plain (c :: word) :: found,
      if opened then [0] else [], some ⟨l.indent == 0, found.length, g⟩, [], false, behind⟩ := by
    have hnote : l.noteKey g =
        some { l with possible := some ⟨l.indent == 0, found.length, g⟩ } := rfl
    have hscalar : plainScalar l.inFlow (l.indent + 1).toNat .none (g :: rest) =
        some (c :: word, false, behind) := hread _
    rw [plain, hnote]
    simp only [Option.bind_eq_bind, Option.bind_some]
    change (plainScalar l.inFlow (l.indent + 1).toNat .none (g :: rest)).bind _ = _
    rw [hscalar]
    rfl
  refine ⟨l.indent == 0, g, rfl, rfl, rfl, ?_⟩
  rw [run_take (g := g) rfl hbreak hblank (hne '#' (by decide))
    (fun h => absurd h (hne byteOrderMark (by decide))) (dropStale_of_none rfl rfl g)
    eq_zero_of_mem_opened, htake, hplain, Option.bind_some]

/-- A colon before a gap ends a key. -/
theorem take_colon {l : Lexer} {g : Glyph} {s : List Glyph} (hg : g.char = ':')
    (hgap : Glyph.atGap s = true) : l.take g s = l.colon g s := by
  have hmark : Glyph.atDocumentMark (g :: s) = false :=
    Glyph.atDocumentMark_eq_false (.inr (by rw [hg]; decide)) s
  simp [take, hg, hmark, hgap]

/-- **The colon behind a key.** The key is put in before its word, and so is, for the first key, the
start of the mapping. -/
theorem colon_key {key : List Char} {opened required : Bool} {found : List Token} {first : Glyph}
    (hcolumn : first.column = 0) (g : Glyph) (s rest : List Glyph) :
    colon g s ⟨.scalar .plain key :: found, if opened then [0] else [],
      some ⟨required, found.length, first⟩, [], false, rest⟩ =
      some (atValue (keyTokens opened key found) s) := by
  have hone : found.length + 1 - found.length = 1 := by omega
  have htwo : found.length + 1 + 1 - found.length = 2 := by omega
  cases opened <;>
    simp [colon, insert, openBlock, indent, inFlow, hcolumn, atValue, keyTokens, push, behind,
      allowKey, hone, htwo]

/-- **The second step of a key** finds the colon. -/
theorem run_keyColon {key : List Char} (hkey : IsKey key) (n : Nat) (opened : Bool)
    (found : List Token) {required : Bool} {g : Glyph} (hcolumn : g.column = 0)
    (hoffset : g.offset = 0) (s : List Char) :
    run (n + 1) ⟨.scalar .plain key :: found, if opened then [0] else [],
        some ⟨required, found.length, g⟩, [], false,
        locate g.line key.length key.length (':' :: ' ' :: s)⟩ =
      run n (atValue (keyTokens opened key found)
        (locate g.line (key.length + 2) (key.length + 2) s)) := by
  have hreach : ∀ h : Glyph, h.line = g.line → h.offset = key.length →
      isStale h ⟨required, found.length, g⟩ = false := by
    intro h hline hlength
    simp [isStale, hline, hlength, hoffset, hkey.short]
  have hspace : ∀ rest, (atValue (keyTokens opened key found)
      (⟨' ', g.line, key.length + 1, key.length + ':'.utf8Size⟩ :: rest)).toToken =
        (atValue (keyTokens opened key found) rest).toToken := by
    intro rest
    rfl
  rw [locate_cons rfl, locate_cons rfl, run_take rfl rfl rfl (by simp) (by simp [byteOrderMark]) ?_
    eq_zero_of_mem_opened, take_colon rfl rfl, colon_key hcolumn, Option.bind_some,
    run_congr (hspace _)]
  · rfl
  · simp [dropStale, stillPossible, hreach]

/-- **A key and its colon** take two steps, behind which a value is due. -/
theorem run_key {key : List Char} (hkey : IsKey key) (n : Nat) (opened : Bool)
    (found : List Token) (line : Nat) (s : List Char) :
    run (n + 2) (atLine opened found (locate line 0 0 (key ++ ':' :: ' ' :: s))) =
      run n (atValue (keyTokens opened key found)
        (locate line (key.length + 2) (key.length + 2) s)) := by
  obtain ⟨required, g, rfl, hcolumn, hoffset, hword⟩ :=
    run_keyWord hkey (n + 1) opened found line s
  rw [hword, run_keyColon hkey n opened found hcolumn hoffset]

/-- **The step of a value** that begins with the character `c`. -/
theorem run_value {c : Char} (hbreak : Yaml.isBreak c = false) (hblank : Yaml.isBlank c = false)
    (hsign : c ≠ '#') {line column offset : Nat} (hcolumn : column ≠ 0) (n : Nat)
    (found : List Token) (s : List Glyph) :
    run (n + 1) (atValue found (⟨c, line, column, offset⟩ :: s)) =
      ((atValue found (⟨c, line, column, offset⟩ :: s)).take ⟨c, line, column, offset⟩ s).bind
        (run n) :=
  run_take (g := ⟨c, line, column, offset⟩) rfl hbreak hblank hsign (fun _ => hcolumn)
    (dropStale_of_none rfl rfl _) (by simp [atValue]) n

end Lexer

end PaneLayout.Yaml
