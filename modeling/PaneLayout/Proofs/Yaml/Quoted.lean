import PaneLayout.Proofs.Yaml.Mapping

set_option autoImplicit false

/-!
# Quoted values

Between double quotes everything but spaces and ordinary characters is written as an escape, on one
line. Between single quotes a text may go over several lines, each of which begins with a margin;
only the separators of lines and paragraphs are left as line breaks there, and these are not folded.

## Main results

* `PaneLayout.Yaml.quotedScalar_escaped` — an escaped text is read back between double quotes.
* `PaneLayout.Yaml.readsAs_double` — a value between double quotes is read back.
* `PaneLayout.Yaml.quotedScalar_single` — a text with doubled quotes and margins is read back
  between single quotes.
* `PaneLayout.Yaml.readsAs_single` — a value between single quotes is read back.
-/

namespace PaneLayout.Yaml

open Glyph (locate locate_cons locate_append locate_lineEnd locate_break)

/-! ### Steps of a quoted scalar -/

section Steps

variable {single : Bool} {gap : Gap} {g h : Glyph} {s : List Glyph}

/-- The text ends within the scalar. -/
theorem quotedScalar_nil (single : Bool) (gap : Gap) : quotedScalar single gap [] = none := rfl

/-- The text ends within the scalar or right behind it. -/
theorem quotedScalar_singleton (single : Bool) (gap : Gap) (g : Glyph) :
    quotedScalar single gap [g] =
      if g.isBlank then none
      else if g.isBreak then none
      else if Glyph.atDocumentMark [g] then none
      else if g.char = (if single then '\'' else '"') then some (gap.fold, [])
      else if !single && g.char == '\\' then none
      else none := rfl

/-- What comes next decides with the glyph behind it how the scalar goes on. -/
theorem quotedScalar_cons (single : Bool) (gap : Gap) (g h : Glyph) (s : List Glyph) :
    quotedScalar single gap (g :: h :: s) =
      if g.isBlank then quotedScalar single (gap.addBlank g.char) (h :: s)
      else if g.isBreak then quotedScalar single (gap.addBreak g.char) (h :: s)
      else if Glyph.atDocumentMark (g :: h :: s) then none
      else if g.char = (if single then '\'' else '"') then
        if single ∧ h.char = '\'' then prepend (gap.fold ++ ['\'']) (quotedScalar single .none s)
        else some (gap.fold, h :: s)
      else if !single && g.char == '\\' then
        if h.isBreak then prepend gap.fold (quotedScalar single (.breaks [] []) s)
        else
          match escapedChar h.char, escapeWidth h.char with
          | some c, _ => prepend (gap.fold ++ [c]) (quotedScalar single .none s)
          | none, some width => prepend gap.fold (numberedChar single width 0 s)
          | none, none => none
      else prepend (gap.fold ++ [g.char]) (quotedScalar single .none (h :: s)) := rfl

/-- Pieces are put in front one after the other. -/
theorem prepend_prepend (piece piece' : List Char) (r : Option (List Char × List Glyph)) :
    prepend piece (prepend piece' r) = prepend (piece ++ piece') r := by
  cases r <;> simp [prepend]

/-- A blank widens the gap. -/
theorem quotedScalar_blank (hg : g.isBlank = true) :
    quotedScalar single gap (g :: s) = quotedScalar single (gap.addBlank g.char) s := by
  cases s <;> simp [quotedScalar_nil, quotedScalar_singleton, quotedScalar_cons, hg]

/-- A line break widens the gap. -/
theorem quotedScalar_break (hblank : g.isBlank = false) (hg : g.isBreak = true) :
    quotedScalar single gap (g :: s) = quotedScalar single (gap.addBreak g.char) s := by
  cases s <;> simp [quotedScalar_nil, quotedScalar_singleton, quotedScalar_cons, hblank, hg]

/-- What is no quote and no backslash stands for itself, behind the gap. -/
theorem quotedScalar_char (hblank : g.isBlank = false) (hbreak : g.isBreak = false)
    (hcolumn : g.column ≠ 0) (hquote : g.char ≠ if single then '\'' else '"')
    (hbackslash : single = true ∨ g.char ≠ '\\') :
    quotedScalar single gap (g :: s) =
      prepend (gap.fold ++ [g.char]) (quotedScalar single .none s) := by
  have hmark : Glyph.atDocumentMark (g :: s) = false :=
    Glyph.atDocumentMark_eq_false (.inl hcolumn) s
  have hplain : (!single && g.char == '\\') = false := by
    rcases hbackslash with rfl | h
    · rfl
    · simp [h]
  cases s <;> simp [quotedScalar_nil, quotedScalar_singleton, quotedScalar_cons, prepend, hblank,
    hbreak, hmark, hquote, hplain]

/-- A double quote ends the scalar. -/
theorem quotedScalar_doubleQuote (hg : g.char = '"') (hcolumn : g.column ≠ 0) :
    quotedScalar false gap (g :: s) = some (gap.fold, s) := by
  have hmark : Glyph.atDocumentMark (g :: s) = false :=
    Glyph.atDocumentMark_eq_false (.inl hcolumn) s
  have hblank : g.isBlank = false := by rw [Glyph.isBlank, hg]; rfl
  have hbreak : g.isBreak = false := by rw [Glyph.isBreak, hg]; rfl
  cases s <;> simp [quotedScalar_singleton, quotedScalar_cons, hblank, hbreak, hmark, hg]

/-- A single quote ends the scalar, unless another one follows. -/
theorem quotedScalar_singleQuote (hg : g.char = '\'') (hcolumn : g.column ≠ 0)
    (hh : h.char ≠ '\'') : quotedScalar true gap (g :: h :: s) = some (gap.fold, h :: s) := by
  have hmark : Glyph.atDocumentMark (g :: h :: s) = false :=
    Glyph.atDocumentMark_eq_false (.inl hcolumn) (h :: s)
  have hblank : g.isBlank = false := by rw [Glyph.isBlank, hg]; rfl
  have hbreak : g.isBreak = false := by rw [Glyph.isBreak, hg]; rfl
  simp [quotedScalar_cons, hblank, hbreak, hmark, hg, hh]

/-- Two single quotes stand for one. -/
theorem quotedScalar_doubledQuote (hg : g.char = '\'') (hcolumn : g.column ≠ 0)
    (hh : h.char = '\'') : quotedScalar true gap (g :: h :: s) =
      prepend (gap.fold ++ ['\'']) (quotedScalar true .none s) := by
  have hmark : Glyph.atDocumentMark (g :: h :: s) = false :=
    Glyph.atDocumentMark_eq_false (.inl hcolumn) (h :: s)
  have hblank : g.isBlank = false := by rw [Glyph.isBlank, hg]; rfl
  have hbreak : g.isBreak = false := by rw [Glyph.isBreak, hg]; rfl
  simp [quotedScalar_cons, hblank, hbreak, hmark, hg, hh]

/-- A backslash and a letter stand for one character. -/
theorem quotedScalar_shortEscape {c : Char} (hg : g.char = '\\') (hcolumn : g.column ≠ 0)
    (hbreak : h.isBreak = false) (hh : escapedChar h.char = some c) :
    quotedScalar false gap (g :: h :: s) =
      prepend (gap.fold ++ [c]) (quotedScalar false .none s) := by
  have hmark : Glyph.atDocumentMark (g :: h :: s) = false :=
    Glyph.atDocumentMark_eq_false (.inl hcolumn) (h :: s)
  have hblank : g.isBlank = false := by rw [Glyph.isBlank, hg]; rfl
  have hunbroken : g.isBreak = false := by rw [Glyph.isBreak, hg]; rfl
  simp [quotedScalar_cons, hblank, hunbroken, hbreak, hmark, hg, hh]

/-- A backslash and one of three letters begin the number of a character. -/
theorem quotedScalar_numberEscape {width : Nat} (hg : g.char = '\\') (hcolumn : g.column ≠ 0)
    (hbreak : h.isBreak = false) (hshort : escapedChar h.char = none)
    (hh : escapeWidth h.char = some width) :
    quotedScalar false gap (g :: h :: s) = prepend gap.fold (numberedChar false width 0 s) := by
  have hmark : Glyph.atDocumentMark (g :: h :: s) = false :=
    Glyph.atDocumentMark_eq_false (.inl hcolumn) (h :: s)
  have hblank : g.isBlank = false := by rw [Glyph.isBlank, hg]; rfl
  have hunbroken : g.isBreak = false := by rw [Glyph.isBreak, hg]; rfl
  simp [quotedScalar_cons, hblank, hunbroken, hbreak, hmark, hg, hshort, hh]

end Steps

/-! ### Numbers of characters -/

/-- How many numbers have so many hexadecimal digits. -/
def hexCount (width : Nat) : Nat := Nat.pow 16 width

/-- With one more digit there are sixteen times as many. -/
theorem hexCount_succ (width : Nat) : hexCount (width + 1) = 16 * hexCount width :=
  Nat.mul_comm (hexCount width) 16

/-- A hexadecimal digit that is written has its value. -/
theorem hexDigit?_digitChar {d : Nat} (h : d < 16) :
    hexDigit? (Nat.digitChar d).toUpper = some d := by
  have hall : ∀ m < 16, hexDigit? (Nat.digitChar m).toUpper = some m := by decide
  exact hall d h

/-- A digit that is not the last one. -/
theorem numberedChar_digit {g : Glyph} {d : Nat} (hg : hexDigit? g.char = some d) (left value : Nat)
    (s : List Glyph) : numberedChar false (left + 2) value (g :: s) =
      numberedChar false (left + 1) (value * 16 + d) s := by
  simp [numberedChar, hg]

/-- The last digit. -/
theorem numberedChar_last {g : Glyph} {d : Nat} {c : Char} (hg : hexDigit? g.char = some d)
    (value : Nat) (hc : charOfNumber? (value * 16 + d) = some c) (s : List Glyph) :
    numberedChar false 1 value (g :: s) = prepend [c] (quotedScalar false .none s) := by
  simp [numberedChar, hg, hc]

/-- **Digits are read one after the other**, if more are to come. -/
theorem numberedChar_hexDigits {width n : Nat} {gs : List Glyph}
    (hgs : Glyph.chars gs = hexDigits width n) (left value : Nat) (s : List Glyph) :
    numberedChar false (width + left + 1) value (gs ++ s) =
      numberedChar false (left + 1) (value * hexCount width + n % hexCount width) s := by
  induction width generalizing n gs left s with
  | zero =>
    obtain rfl : gs = [] := by simpa [Glyph.chars, hexDigits] using hgs
    have hone : hexCount 0 = 1 := rfl
    simp [hone, Nat.mod_one]
  | succ width ih =>
    rw [hexDigits, Glyph.chars, List.map_eq_append_iff] at hgs
    obtain ⟨init, last, rfl, hinit, hlast⟩ := hgs
    obtain ⟨g, rfl, hg⟩ := List.map_eq_singleton_iff.1 hlast
    have hdigit : hexDigit? g.char = some (n % 16) := by
      rw [hg, hexDigit?_digitChar (Nat.mod_lt _ (by decide))]
    have hvalue : (value * hexCount width + n / 16 % hexCount width) * 16 + n % 16 =
        value * hexCount (width + 1) + n % hexCount (width + 1) := by
      rw [hexCount_succ, Nat.mod_mul, Nat.add_mul, Nat.mul_assoc, Nat.mul_comm (hexCount width) 16]
      omega
    have hcount : width + 1 + left + 1 = width + (left + 1) + 1 := by omega
    rw [List.append_assoc, hcount, ih hinit (left + 1), List.singleton_append,
      numberedChar_digit hdigit, hvalue]

/-- A character has its number. -/
theorem charOfNumber?_toNat (c : Char) : charOfNumber? c.toNat = some c := by
  have hvalid : c.toNat < 0xD800 ∨ (0xDFFF < c.toNat ∧ c.toNat < 0x110000) := c.valid
  rw [charOfNumber?, if_neg (by omega), Char.ofNat_toNat]

/-- **The number of a character is read back.** -/
theorem numberedChar_toNat {c : Char} {width : Nat} (hc : c.toNat < hexCount (width + 1))
    {gs : List Glyph} (hgs : Glyph.chars gs = hexDigits (width + 1) c.toNat) (s : List Glyph) :
    numberedChar false (width + 1) 0 (gs ++ s) = prepend [c] (quotedScalar false .none s) := by
  rw [hexDigits, Glyph.chars, List.map_eq_append_iff] at hgs
  obtain ⟨init, last, rfl, hinit, hlast⟩ := hgs
  obtain ⟨g, rfl, hg⟩ := List.map_eq_singleton_iff.1 hlast
  have hdigit : hexDigit? g.char = some (c.toNat % 16) := by
    rw [hg, hexDigit?_digitChar (Nat.mod_lt _ (by decide))]
  have hsmall : c.toNat / 16 < hexCount width := by
    rw [hexCount_succ] at hc
    omega
  have hvalue : (0 * hexCount width + c.toNat / 16 % hexCount width) * 16 + c.toNat % 16 =
      c.toNat := by
    rw [Nat.mod_eq_of_lt hsmall]
    omega
  rw [List.append_assoc, numberedChar_hexDigits hinit 0, List.singleton_append]
  exact numberedChar_last hdigit _ (by rw [hvalue, charOfNumber?_toNat]) s

/-! ### Escapes -/

/-- What may stand in an escape. -/
def escapeAlphabet : List Char := "\\\"0abtnvfreNLPxuU123456789ABCDEF".toList

/-- An escape stands within a line and may stand in a text. -/
theorem mem_escapeAlphabet {d : Char} (hd : d ∈ escapeAlphabet) :
    isBreak d = false ∧ isAllowed d = true :=
  forall_mem_of_all (p := fun d => isBreak d = false ∧ isAllowed d = true) (by decide) d hd

/-- Hexadecimal digits are written in capitals. -/
theorem mem_hexDigits {width n : Nat} : ∀ d ∈ hexDigits width n, d ∈ escapeAlphabet := by
  have hall : ∀ m < 16, (Nat.digitChar m).toUpper ∈ escapeAlphabet := by decide
  induction width generalizing n with
  | zero => intro d hd; cases hd
  | succ width ih =>
    refine List.forall_mem_append.2 ⟨ih, fun d hd => ?_⟩
    rw [List.mem_singleton.1 hd]
    exact hall _ (Nat.mod_lt _ (by decide))

/-- **The ways to write a character** between double quotes: it stands for itself, or a backslash
and a letter stand for it, or a backslash, a letter and its number. -/
inductive Escaped (c : Char) : List Char → Prop where
  | self : c ≠ '"' → c ≠ '\\' → isPlainlyShown c = true → isBreak c = false → Escaped c [c]
  | short {e : Char} : e ∈ escapeAlphabet → escapedChar e = some c → Escaped c ['\\', e]
  | number {e : Char} {width : Nat} : e ∈ escapeAlphabet → escapedChar e = none →
    escapeWidth e = some (width + 1) → c.toNat < hexCount (width + 1) →
    Escaped c (['\\', e] ++ hexDigits (width + 1) c.toNat)

/-- Where two ways are told apart by a condition, each has to be right under its own. -/
theorem Escaped.ite {c : Char} {p : Prop} [Decidable p] {w w' : List Char} (hw : p → Escaped c w)
    (hw' : ¬ p → Escaped c w') : Escaped c (if p then w else w') := by
  split
  · exact hw ‹_›
  · exact hw' ‹_›

/-- If one character has a letter of its own, it remains to look at all others. -/
theorem Escaped.ite_short {c d e : Char} {w : List Char} (he : e ∈ escapeAlphabet)
    (hd : escapedChar e = some d) (hw : Escaped c w) :
    Escaped c (if c.toNat = d.toNat then ['\\', e] else w) :=
  .ite (fun hc => .short he (by rw [hd, Char.toNat_inj.1 hc])) fun _ => hw

/-- If the characters up to a bound have numbers of some width, it remains to look at those
beyond. -/
theorem Escaped.ite_number {c e : Char} {bound width : Nat} {w : List Char}
    (he : e ∈ escapeAlphabet) (hshort : escapedChar e = none)
    (hwidth : escapeWidth e = some (width + 1)) (hbound : bound < hexCount (width + 1))
    (hw : Escaped c w) :
    Escaped c (if c.toNat ≤ bound then ['\\', e] ++ hexDigits (width + 1) c.toNat else w) :=
  .ite (fun hc => .number he hshort hwidth (Nat.lt_of_le_of_lt hc hbound)) fun _ => hw

/-- **Every character is written in one of these ways.** -/
theorem escaped_escape (c : Char) : Escaped c (escape c) := by
  have hmany : hexCount 8 = 0x100000000 := rfl
  have hlarge : c.toNat < hexCount 8 := by
    have hvalid : c.toNat < 0xD800 ∨ (0xDFFF < c.toNat ∧ c.toNat < 0x110000) := c.valid
    omega
  rw [escape]
  refine .ite (fun hquote => ?_) fun hquote => .ite (fun hshown => ?_) fun _ => ?_
  · rcases hquote with rfl | rfl
    · exact .short (by decide) rfl
    · exact .short (by decide) rfl
  · simp only [Bool.and_eq_true, Bool.not_eq_true'] at hshown
    exact .self (fun h => hquote (.inl h)) (fun h => hquote (.inr h)) hshown.1 hshown.2
  · refine .ite_short (d := '\x00') (by decide) rfl ?_
    refine .ite_short (d := '\x07') (by decide) rfl ?_
    refine .ite_short (d := '\x08') (by decide) rfl ?_
    refine .ite_short (d := '\t') (by decide) rfl ?_
    refine .ite_short (d := '\n') (by decide) rfl ?_
    refine .ite_short (d := '\x0b') (by decide) rfl ?_
    refine .ite_short (d := '\x0c') (by decide) rfl ?_
    refine .ite_short (d := '\r') (by decide) rfl ?_
    refine .ite_short (d := '\x1b') (by decide) rfl ?_
    refine .ite_short (d := '\u0085') (by decide) rfl ?_
    refine .ite_short (d := '\u2028') (by decide) rfl ?_
    refine .ite_short (d := '\u2029') (by decide) rfl ?_
    refine .ite_number (by decide) rfl rfl (by decide) ?_
    refine .ite_number (by decide) rfl rfl (by decide) ?_
    exact .number (by decide) rfl rfl hlarge

/-- What is shown on a line may stand in a text. -/
theorem isAllowed_of_isPlainlyShown {c : Char} (h : isPlainlyShown c = true) :
    isAllowed c = true := by
  simp only [isPlainlyShown, Bool.or_eq_true, Bool.and_eq_true, beq_iff_eq, decide_eq_true_eq] at h
  simp only [isAllowed, Bool.or_eq_true, Bool.and_eq_true, beq_iff_eq, decide_eq_true_eq]
  omega

/-- A tab is not shown on a line. -/
theorem ne_tab_of_isPlainlyShown {c : Char} (h : isPlainlyShown c = true) : c ≠ '\t' := by
  rintro rfl
  revert h
  decide

/-- Of the line breaks, the line feed and the two separators can be shown. -/
theorem eq_of_isBreak_of_isPlainlyShown {c : Char} (h : isPlainlyShown c = true)
    (hc : isBreak c = true) : c = '\n' ∨ c = '\u2028' ∨ c = '\u2029' := by
  simp only [isBreak, Bool.or_eq_true, beq_iff_eq] at hc
  rcases hc with (((rfl | rfl) | rfl) | rfl) | rfl
  · exact .inl rfl
  · exact absurd h (by decide)
  · exact absurd h (by decide)
  · exact .inr (.inl rfl)
  · exact .inr (.inr rfl)

/-- A line break is no blank. -/
theorem isBlank_of_isBreak {c : Char} (hc : isBreak c = true) : isBlank c = false := by
  simp only [isBreak, Bool.or_eq_true, beq_iff_eq] at hc
  rcases hc with (((rfl | rfl) | rfl) | rfl) | rfl <;> rfl

/-- A written character stands within a line and may stand in a text. -/
theorem Escaped.mem {c : Char} {w : List Char} (h : Escaped c w) :
    ∀ d ∈ w, isBreak d = false ∧ isAllowed d = true := by
  cases h with
  | self hquote hbackslash hshown hbreak =>
    intro d hd
    rw [List.mem_singleton.1 hd]
    exact ⟨hbreak, isAllowed_of_isPlainlyShown hshown⟩
  | short he _ =>
    exact List.forall_mem_cons.2 ⟨mem_escapeAlphabet (by decide),
      List.forall_mem_singleton.2 (mem_escapeAlphabet he)⟩
  | number he _ _ _ =>
    refine List.forall_mem_cons.2 ⟨mem_escapeAlphabet (by decide),
      List.forall_mem_cons.2 ⟨mem_escapeAlphabet he, ?_⟩⟩
    exact fun d hd => mem_escapeAlphabet (mem_hexDigits d hd)

/-- **One character is read back** from what is written for it, behind the gap. A space would
belong to the gap. -/
theorem quotedScalar_of_escaped {c : Char} {w : List Char} (h : Escaped c w) (hspace : c ≠ ' ')
    {gs : List Glyph} (hgs : Glyph.chars gs = w) (hcolumn : ∀ g ∈ gs, g.column ≠ 0) (gap : Gap)
    (s : List Glyph) : quotedScalar false gap (gs ++ s) =
      prepend (gap.fold ++ [c]) (quotedScalar false .none s) := by
  cases h with
  | self hquote hbackslash hshown hbreak =>
    obtain ⟨g, rfl, rfl⟩ := List.map_eq_singleton_iff.1 hgs
    have hblank : g.isBlank = false := by
      simp [Glyph.isBlank, isBlank, hspace, ne_tab_of_isPlainlyShown hshown]
    exact quotedScalar_char hblank hbreak (hcolumn g List.mem_cons_self) hquote (.inr hbackslash)
  | short he hc =>
    obtain ⟨g, gs, rfl, hg, hgs⟩ := List.map_eq_cons_iff.1 hgs
    obtain ⟨h, rfl, rfl⟩ := List.map_eq_singleton_iff.1 hgs
    have hbreak : h.isBreak = false := (mem_escapeAlphabet he).1
    exact quotedScalar_shortEscape hg (hcolumn g List.mem_cons_self) hbreak hc
  | number he hshort hwidth hsmall =>
    obtain ⟨g, gs, rfl, hg, hgs⟩ := List.map_eq_cons_iff.1 hgs
    obtain ⟨h, digits, rfl, rfl, hdigits⟩ := List.map_eq_cons_iff.1 hgs
    have hbreak : h.isBreak = false := (mem_escapeAlphabet he).1
    rw [List.cons_append, List.cons_append,
      quotedScalar_numberEscape hg (hcolumn g List.mem_cons_self) hbreak hshort hwidth,
      numberedChar_toNat hsmall hdigits, prepend_prepend]

/-- **An escaped text is read back**, behind the spaces that come before it, and up to the closing
quote.

**Proof sketch.** Induction on the text. A space widens the gap, and any other character takes up
the gap before it. -/
theorem quotedScalar_escaped (text b : List Char) (line : Nat) {column : Nat} (hcolumn : column ≠ 0)
    (offset : Nat) (tail : List Char) : ∃ column' offset',
      quotedScalar false (.blanks b)
        (locate line column offset (text.flatMap escape ++ '"' :: tail)) =
          some (b ++ text, locate line column' offset' tail) := by
  induction text generalizing b column offset with
  | nil =>
    refine ⟨column + 1, offset + '"'.utf8Size, ?_⟩
    rw [List.flatMap_nil, List.nil_append, locate_cons rfl, quotedScalar_doubleQuote rfl hcolumn,
      List.append_nil]
    rfl
  | cons c text ih =>
    have hunbroken : ∀ d ∈ escape c, isBreak d = false := fun d hd =>
      ((escaped_escape c).mem d hd).1
    rw [List.flatMap_cons, List.append_assoc]
    by_cases hspace : c = ' '
    · subst hspace
      obtain ⟨column', offset', hread⟩ :=
        ih (b ++ [' ']) (Nat.succ_ne_zero column) (offset + ' '.utf8Size)
      refine ⟨column', offset', ?_⟩
      have hsame : escape ' ' = [' '] := by decide
      rw [hsame, List.singleton_append, locate_cons rfl, quotedScalar_blank rfl]
      simpa [Gap.addBlank] using hread
    · have hcolumn' : column + (escape c).length ≠ 0 := by omega
      obtain ⟨column', offset', hread⟩ := ih [] hcolumn' (offset + Glyph.byteCount (escape c))
      refine ⟨column', offset', ?_⟩
      rw [locate_append hunbroken, quotedScalar_of_escaped (escaped_escape c) hspace
        (Glyph.chars_locate hunbroken line column offset)
        (fun g hg => Glyph.column_ne_zero_of_mem_locate hunbroken hcolumn hg), Gap.none, hread]
      simp [prepend, Gap.fold]

/-! ### Texts between single quotes -/

/-- **Texts that can stand between single quotes**: every character can be shown on a line, there
is no line feed, and no space stands beside a line break. -/
structure SingleText (text : List Char) : Prop where
  shown : ∀ c ∈ text, isPlainlyShown c = true
  unfed : '\n' ∉ text
  before : hasAdjacent isSpace isBreak text = false
  behind : hasAdjacent isBreak isSpace text = false

namespace SingleText

variable {c : Char} {text : List Char}

/-- What is left of a text behind its first character. -/
theorem tail (h : SingleText (c :: text)) : SingleText text := by
  refine ⟨fun d hd => h.shown d (List.mem_cons_of_mem c hd),
    fun hd => h.unfed (List.mem_cons_of_mem c hd), ?_, ?_⟩
  · have hbefore := h.before
    cases text with
    | nil => rfl
    | cons d text => exact (Bool.or_eq_false_iff.1 hbefore).2
  · have hbehind := h.behind
    cases text with
    | nil => rfl
    | cons d text => exact (Bool.or_eq_false_iff.1 hbehind).2

/-- Only the separators of lines and of paragraphs are left as line breaks. -/
theorem eq_of_isBreak (h : SingleText (c :: text)) (hc : isBreak c = true) :
    c ≠ '\n' ∧ (c = '\n' ∨ c = '\u2028' ∨ c = '\u2029') := by
  have hfeed : c ≠ '\n' := fun hfeed => h.unfed (by rw [hfeed]; exact List.mem_cons_self)
  exact ⟨hfeed, eq_of_isBreak_of_isPlainlyShown (h.shown c List.mem_cons_self) hc⟩

end SingleText

/-- **The gap before a text** between single quotes: spaces, behind which there is no line break, or
line breaks that are kept, behind which there is no space. -/
inductive Gap.Before : Gap → List Char → Prop where
  | blanks {b text : List Char} :
    (b ≠ [] → ∀ c ∈ text.head?, isBreak c = false) → Gap.Before (.blanks b) text
  | breaks {c : Char} {more text : List Char} :
    c ≠ '\n' → text.head? ≠ some ' ' → Gap.Before (.breaks [c] more) text

namespace Gap.Before

variable {gap : Gap} {c : Char} {text : List Char}

/-- No gap may stand before any text. -/
theorem none (text : List Char) : Gap.none.Before text := .blanks fun h => absurd rfl h

/-- A space stands within a line, and belongs to the gap before the text behind it. -/
theorem addBlank (h : gap.Before (' ' :: text)) (htext : SingleText (' ' :: text)) :
    gap.isBroken = false ∧ (gap.addBlank ' ').isBroken = false ∧
      (gap.addBlank ' ').fold = gap.fold ++ [' '] ∧ (gap.addBlank ' ').Before text := by
  cases h with
  | blanks _ =>
    refine ⟨rfl, rfl, rfl, .blanks fun _ c hc => ?_⟩
    cases text with
    | nil => cases hc
    | cons d text =>
      obtain rfl := Option.some.inj hc
      exact (Bool.or_eq_false_iff.1 htext.before).1
  | breaks _ hspace => exact absurd rfl hspace

/-- A line break belongs to the gap before the text behind it, and is kept. -/
theorem addBreak (h : gap.Before (c :: text)) (htext : SingleText (c :: text))
    (hc : isBreak c = true) : (gap.addBreak c).isBroken = true ∧
      (gap.addBreak c).fold = gap.fold ++ [c] ∧ (gap.addBreak c).Before text := by
  obtain ⟨hfeed, -⟩ := htext.eq_of_isBreak hc
  have hspace : text.head? ≠ some ' ' := by
    cases text with
    | nil => exact fun hnone => nomatch hnone
    | cons d text =>
      intro hd
      obtain rfl := Option.some.inj hd
      have hbehind := (Bool.or_eq_false_iff.1 htext.behind).1
      rw [hc] at hbehind
      cases hbehind
  cases h with
  | @blanks b _ hb =>
    have hnone : b = [] := by
      by_cases hempty : b = []
      · exact hempty
      · rw [hb hempty c rfl] at hc
        cases hc
    subst hnone
    exact ⟨rfl, by simp [Gap.addBreak, Gap.fold, hfeed], .breaks hfeed hspace⟩
  | breaks hfirst _ =>
    exact ⟨rfl, by simp [Gap.addBreak, Gap.fold, hfirst], .breaks hfirst hspace⟩

end Gap.Before

/-- **The margin of a line** is passed over, and what is behind it stands further in. -/
theorem quotedScalar_margin (single : Bool) {gap : Gap} (line : Nat) {column : Nat}
    (hcolumn : gap.isBroken = false → column ≠ 0) (offset : Nat) (s : List Char) :
    ∃ column' offset', column' ≠ 0 ∧
      quotedScalar single gap
        (locate line column offset ((if gap.isBroken then margin else []) ++ s)) =
          quotedScalar single gap (locate line column' offset' s) := by
  cases gap with
  | blanks b => exact ⟨column, offset, hcolumn rfl, rfl⟩
  | breaks first more =>
    refine ⟨column + 1 + 1, offset + ' '.utf8Size + ' '.utf8Size, Nat.succ_ne_zero _, ?_⟩
    have hmargin : (if (Gap.breaks first more).isBroken then margin else []) ++ s =
        ' ' :: ' ' :: s := rfl
    rw [hmargin, locate_cons rfl, locate_cons rfl, quotedScalar_blank rfl, quotedScalar_blank rfl]
    rfl

/-- The closing quote, at the end of a line. -/
theorem quotedScalar_close {g : Glyph} (hg : g.char = '\'') (hcolumn : g.column ≠ 0) (gap : Gap)
    {e : List Char} (he : IsLineEnd e) (line column offset : Nat) (s : List Char) :
    quotedScalar true gap (g :: locate line column offset (e ++ s)) =
      some (gap.fold, locate line column offset (e ++ s)) := by
  rw [locate_lineEnd he]
  exact quotedScalar_singleQuote hg hcolumn (show '\n' ≠ '\'' by decide)

/-- A quote within the text is doubled, and every other character stands for itself. -/
theorem quotedScalar_inner {c : Char} (hshown : isPlainlyShown c = true) (hspace : c ≠ ' ')
    (hbreak : isBreak c = false) (gap : Gap) (line : Nat) {column : Nat} (hcolumn : column ≠ 0)
    (offset : Nat) (s : List Char) : ∃ column' offset', column' ≠ 0 ∧
      quotedScalar true gap
        (locate line column offset ((if c = '\'' then [c, c] else [c]) ++ s)) =
          prepend (gap.fold ++ [c]) (quotedScalar true .none (locate line column' offset' s)) := by
  by_cases hquote : c = '\''
  · subst hquote
    refine ⟨column + 1 + 1, offset + '\''.utf8Size + '\''.utf8Size, Nat.succ_ne_zero _, ?_⟩
    rw [if_pos rfl, List.cons_append, List.singleton_append, locate_cons rfl, locate_cons rfl,
      quotedScalar_doubledQuote rfl hcolumn rfl]
  · have hblank : isBlank c = false := by simp [isBlank, hspace, ne_tab_of_isPlainlyShown hshown]
    refine ⟨column + 1, offset + c.utf8Size, Nat.succ_ne_zero _, ?_⟩
    rw [if_neg hquote, List.singleton_append, locate_cons hbreak]
    exact quotedScalar_char hblank hbreak hcolumn hquote (.inl rfl)

/-- **A text between single quotes is read back**, behind the gap before it, and up to the closing
quote.

**Proof sketch.** Induction on the text. Spaces and line breaks widen the gap, since no space stands
beside a line break that would be lost; any other character takes up the gap before it. -/
theorem quotedScalar_single {text : List Char} (htext : SingleText text) {gap : Gap}
    (hgap : gap.Before text) {e : List Char} (he : IsLineEnd e) (s : List Char) (line : Nat)
    (column offset : Nat) (hcolumn : gap.isBroken = false → column ≠ 0) :
    ∃ line' column' offset', quotedScalar true gap
        (locate line column offset (singleQuoted gap.isBroken text ++ (e ++ s))) =
          some (gap.fold ++ text, locate line' column' offset' (e ++ s)) := by
  induction text generalizing gap line column offset with
  | nil =>
    obtain ⟨column', offset', hcolumn', hmargin⟩ :=
      quotedScalar_margin true line hcolumn offset ('\'' :: (e ++ s))
    refine ⟨line, column' + 1, offset' + '\''.utf8Size, ?_⟩
    have hsame : singleQuoted gap.isBroken [] ++ (e ++ s) =
        (if gap.isBroken then margin else []) ++ '\'' :: (e ++ s) := by simp [singleQuoted]
    rw [hsame, hmargin, locate_cons rfl, quotedScalar_close rfl hcolumn' gap he, List.append_nil]
  | cons c text ih =>
    by_cases hspace : c = ' '
    · subst hspace
      obtain ⟨hline, hline', hfold, hbefore⟩ := hgap.addBlank htext
      obtain ⟨line', column', offset', hread⟩ := ih htext.tail hbefore line (column + 1)
        (offset + ' '.utf8Size) fun _ => Nat.succ_ne_zero column
      refine ⟨line', column', offset', ?_⟩
      have hsame : singleQuoted gap.isBroken (' ' :: text) =
          ' ' :: singleQuoted (gap.addBlank ' ').isBroken text := by
        rw [hline, hline']
        rfl
      rw [hsame, List.cons_append, locate_cons rfl, quotedScalar_blank rfl, hread, hfold,
        List.append_assoc]
      rfl
    · have hinner : isSpace c = false := beq_eq_false_iff_ne.2 hspace
      cases hbreak : isBreak c with
      | true =>
        -- A line feed would be doubled; the two separators are not, and are not folded.
        obtain ⟨hfeed, hkept⟩ := htext.eq_of_isBreak hbreak
        obtain ⟨hbroken, hfold, hbefore⟩ := hgap.addBreak htext hbreak
        obtain ⟨line', column', offset', hread⟩ := ih htext.tail hbefore (line + 1) 0 0
          fun h => by rw [hbroken] at h; cases h
        refine ⟨line', column', offset', ?_⟩
        have hsame : singleQuoted gap.isBroken (c :: text) =
            c :: singleQuoted (gap.addBreak c).isBroken text := by
          rw [hbroken]
          simp [singleQuoted, hinner, hbreak, hfeed]
        have hblank := isBlank_of_isBreak hbreak
        rw [hsame, List.cons_append, locate_break hkept,
          quotedScalar_break (g := ⟨c, line, column, offset⟩) hblank hbreak, hread,
          hfold, List.append_assoc]
        rfl
      | false =>
        have hshown := htext.shown c List.mem_cons_self
        obtain ⟨column₁, offset₁, hcolumn₁, hmargin⟩ := quotedScalar_margin true
          line hcolumn offset
          ((if c = '\'' then [c, c] else [c]) ++ (singleQuoted false text ++ (e ++ s)))
        obtain ⟨column₂, offset₂, hcolumn₂, hchar⟩ := quotedScalar_inner hshown hspace hbreak gap
          line hcolumn₁ offset₁ (singleQuoted false text ++ (e ++ s))
        obtain ⟨line', column', offset', hread⟩ :=
          ih htext.tail (Gap.Before.none text) line column₂ offset₂ fun _ => hcolumn₂
        refine ⟨line', column', offset', ?_⟩
        have hsame : singleQuoted gap.isBroken (c :: text) =
            (if gap.isBroken then margin else []) ++ ((if c = '\'' then [c, c] else [c]) ++
              singleQuoted false text) := by
          simp [singleQuoted, hinner, hbreak]
        have hnone : Gap.none.isBroken = false := rfl
        rw [hnone] at hread
        rw [hsame, List.append_assoc, List.append_assoc, hmargin, hchar, hread]
        simp [prepend, Gap.none, Gap.fold]

/-! ### Values between quotes -/

namespace Lexer

/-- The end of a line behind a value that holds no line break of its own. -/
theorem run_behind_value {e : List Char} (he : IsLineEnd e) (n : Nat) (found : List Token)
    (line column offset : Nat) (s : List Char) :
    run n ⟨found, [0], none, [], false, locate line column offset (e ++ s)⟩ =
      run n (atLine true found (locate (line + 1) 0 0 s)) := by
  refine run_congr ?_ n
  rw [locate_lineEnd he]
  simp [toToken, atLine, inFlow, skipGaps_lineFeed]

/-- A single or a double quote begins a quoted scalar, which is read behind it. -/
theorem take_quote (single : Bool) {l : Lexer} {g : Glyph} (hcolumn : g.column ≠ 0)
    (hg : g.char = if single then '\'' else '"') (s : List Glyph) :
    l.take g s = (quotedScalar single .none s).bind fun (text, rest) =>
      l.content g (.scalar (if single then .single else .double) text) rest := by
  have hmark : Glyph.atDocumentMark (g :: s) = false :=
    Glyph.atDocumentMark_eq_false (.inl hcolumn) s
  cases single
  · simp [take, hcolumn, hmark, hg]
  · simp [take, hcolumn, hmark, hg]

end Lexer

/-- **A value between quotes is read back** if its text is read up to the closing quote. -/
theorem readsAs_quoted (single : Bool) {w e s text : List Char} (he : IsLineEnd e)
    (hread : ∀ line column offset, column ≠ 0 → ∃ line' column' offset',
      quotedScalar single .none (locate line column offset (w ++ (e ++ s))) =
        some (text, locate line' column' offset' (e ++ s))) :
    ReadsAs ((if single then '\'' else '"') :: w ++ e) s (if single then .single else .double)
      text := by
  intro n found line column offset hcolumn
  obtain ⟨line', column', offset', hread⟩ := hread line (column + 1)
    (offset + (if single then '\'' else '"').utf8Size) (Nat.succ_ne_zero column)
  have hquote : isBreak (if single then '\'' else '"') = false ∧
      isBlank (if single then '\'' else '"') = false ∧ (if single then '\'' else '"') ≠ '#' := by
    cases single <;> decide
  refine ⟨line' + 1, ?_⟩
  rw [List.cons_append, List.cons_append, List.append_assoc, locate_cons hquote.1,
    Lexer.run_value hquote.1 hquote.2.1 hquote.2.2 hcolumn,
    Lexer.take_quote single hcolumn rfl, hread]
  exact Lexer.run_behind_value he n _ line' column' offset' s

/-- **A value between double quotes is read back.** -/
theorem readsAs_double (text : List Char) {e : List Char} (he : IsLineEnd e) (s : List Char) :
    ReadsAs ('"' :: (text.flatMap escape ++ ['"']) ++ e) s .double text := by
  refine readsAs_quoted false he fun line column offset hcolumn => ?_
  obtain ⟨column', offset', hread⟩ :=
    quotedScalar_escaped text [] line hcolumn offset (e ++ s)
  exact ⟨line, column', offset', by rw [List.append_assoc]; exact hread⟩

/-- **A value between single quotes is read back.** -/
theorem readsAs_single {text : List Char} (htext : SingleText text) {e : List Char}
    (he : IsLineEnd e) (s : List Char) :
    ReadsAs ('\'' :: singleQuoted false text ++ e) s .single text :=
  readsAs_quoted true he fun line column offset hcolumn =>
    quotedScalar_single htext (Gap.Before.none text) he s line column offset fun _ => hcolumn

end PaneLayout.Yaml
