import PaneLayout.Proofs.Json.Balance
import PaneLayout.Proofs.Json.WholeNumber

set_option autoImplicit false

/-!
# How far a token looks ahead

A word, a literal or a number is read from the characters that it consists of. What follows has a
part in it only for numbers, and only by its first character: a number ends where neither a digit
nor a point nor an exponent goes on with it. Blanks other than spaces are in no token.

## Main definitions

* `PaneLayout.Json.Unbroken` — texts whose only blanks are spaces.
* `PaneLayout.Json.Ends` — texts that do not go on with a number.
* `PaneLayout.Json.Scans` — a reader that looks only at what it uses up.

## Main results

* `PaneLayout.Json.exists_of_units` — the characters of a literal.
* `PaneLayout.Json.exists_of_numeral` — the characters of a number.
* `PaneLayout.Json.scalar_scans` — a scalar is read from its own characters.
-/

namespace PaneLayout.Json

/-- **Unbroken texts**: the only blanks in them are spaces. -/
def Unbroken (x : List Char) : Prop := ∀ c ∈ x, isSpace c = true → c = ' '

namespace Unbroken

variable {c : Char} {x y : List Char}

theorem nil : Unbroken [] := nofun

/-- A character that is no blank may stand before an unbroken text. -/
theorem cons (hc : isSpace c = false) (h : Unbroken x) : Unbroken (c :: x) := by
  rintro d hd hspace
  rcases List.mem_cons.1 hd with rfl | hd
  · rw [hc] at hspace
    contradiction
  · exact h d hd hspace

theorem append (h : Unbroken x) (h' : Unbroken y) : Unbroken (x ++ y) := by
  intro c hc
  rcases List.mem_append.1 hc with hc | hc
  · exact h c hc
  · exact h' c hc

/-- A text without blanks is unbroken. -/
theorem of_forall (h : ∀ c ∈ x, isSpace c = false) : Unbroken x := by
  intro c hc hspace
  rw [h c hc] at hspace
  contradiction

end Unbroken

/-- A blank is one of four characters. -/
theorem eq_of_isSpace {c : Char} (h : isSpace c = true) :
    c = ' ' ∨ c = '\n' ∨ c = '\t' ∨ c = '\r' := by
  simpa only [isSpace, Bool.or_eq_true, beq_iff_eq, or_assoc] using h

/-- A digit is no blank. -/
theorem isSpace_of_isDigit {c : Char} (h : c.isDigit = true) : isSpace c = false := by
  by_contra hspace
  rcases eq_of_isSpace (by simpa using hspace) with rfl | rfl | rfl | rfl <;>
    exact absurd h (by decide)

/-- Digits are unbroken. -/
theorem Unbroken.of_digits {ds : List Char} (h : ∀ c ∈ ds, c.isDigit = true) : Unbroken ds :=
  .of_forall fun c hc => isSpace_of_isDigit (h c hc)

/-! ### Words and literals -/

/-- A word is read whatever follows it. -/
theorem expect_append (word rest : List Char) : expect word (word ++ rest) = .ok rest := by
  induction word with
  | nil => rfl
  | cons c word ih => rw [List.cons_append, expect, if_pos rfl, ih]

/-- A hexadecimal digit is no blank. -/
theorem isSpace_of_hexValue {c : Char} {n : Nat} (h : hexValue c = some n) : isSpace c = false := by
  by_contra hspace
  rcases eq_of_isSpace (by simpa using hspace) with rfl | rfl | rfl | rfl <;>
    simp [hexValue] at h

/-- The letter of an escape is no blank. -/
theorem isSpace_of_shortEscape {e c : Char} (h : shortEscape e = some c) : isSpace e = false := by
  by_contra hspace
  rcases eq_of_isSpace (by simpa using hspace) with rfl | rfl | rfl | rfl <;>
    simp [shortEscape] at h

/-- Four hexadecimal digits may stand before an unbroken text. -/
theorem Unbroken.hexNumber {a b c d : Char} {n : Nat} (h : Json.hexNumber a b c d = some n)
    {x : List Char} (hx : Unbroken x) : Unbroken (a :: b :: c :: d :: x) := by
  simp only [Json.hexNumber, Option.bind_eq_bind, Option.bind_eq_some_iff] at h
  obtain ⟨na, ha, nb, hb, nc, hc, nd, hd, -⟩ := h
  exact .cons (isSpace_of_hexValue ha) (.cons (isSpace_of_hexValue hb)
    (.cons (isSpace_of_hexValue hc) (.cons (isSpace_of_hexValue hd) hx)))

/-- **Units** are read from the characters up to the closing quote, whatever follows it. Control
characters are not among them. -/
theorem exists_of_units {s rest : List Char} {us : List LiteralUnit}
    (h : units s = (us, .closed rest)) :
    ∃ x, s = x ++ rest ∧ Unbroken x ∧ ∀ rest', units (x ++ rest') = (us, .closed rest') := by
  fun_induction units s generalizing us with
  | case2 t =>
    obtain ⟨rfl, rfl⟩ : [] = us ∧ t = rest := by simpa using h
    refine ⟨['"'], rfl, .cons rfl .nil, fun rest' => ?_⟩
    rw [units.eq_def]
    simp
  | case4 a b c d t n hn vs stop hunits _ ih =>
    obtain ⟨rfl, rfl⟩ : .code n :: vs = us ∧ stop = .closed rest := by simpa using h
    obtain ⟨x, rfl, hx, hread⟩ := ih hunits
    refine ⟨'\\' :: 'u' :: a :: b :: c :: d :: x, rfl, .cons rfl (.cons rfl (hx.hexNumber hn)),
      fun rest' => ?_⟩
    rw [units.eq_def]
    simp [hn, hread]
  | case7 e t hu c hc vs stop hunits _ ih =>
    obtain ⟨rfl, rfl⟩ : .char c :: vs = us ∧ stop = .closed rest := by simpa using h
    obtain ⟨x, rfl, hx, hread⟩ := ih hunits
    refine ⟨'\\' :: e :: x, rfl, .cons rfl (.cons (isSpace_of_shortEscape hc) hx),
      fun rest' => ?_⟩
    rw [List.cons_append, List.cons_append, units_shortEscape hu hc, hread]
  | case10 c t hquote hbackslash hlow vs stop hunits ih =>
    obtain ⟨rfl, rfl⟩ : .char c :: vs = us ∧ stop = .closed rest := by simpa using h
    obtain ⟨x, rfl, hx, hread⟩ := ih hunits
    refine ⟨c :: x, rfl, ?_, fun rest' => ?_⟩
    · intro d hd hspace
      rcases List.mem_cons.1 hd with rfl | hd
      · rcases eq_of_isSpace hspace with rfl | rfl | rfl | rfl
        · rfl
        all_goals exact absurd (by decide) hlow
      · exact hx d hd hspace
    · rw [units.eq_def]
      simp [hquote, hbackslash, hlow, hread]
  | _ => simp at h

/-- A literal is read from the characters up to the closing quote, whatever follows it. -/
theorem exists_of_stringLiteral {s rest : List Char} {text : String}
    (h : stringLiteral s = .ok (text, rest)) :
    ∃ x, s = x ++ rest ∧ Unbroken x ∧ ∀ rest', stringLiteral (x ++ rest') = .ok (text, rest') := by
  rw [stringLiteral] at h
  cases hunits : units s with
  | mk us stop =>
    rw [hunits] at h
    cases stop with
    | broken fault =>
      dsimp only at h
      split at h <;> simp at h
    | closed left =>
      dsimp only at h
      cases hdecode : decodeUnits us with
      | error lone => simp [hdecode] at h
      | ok found =>
        obtain ⟨rfl, rfl⟩ : String.ofList found = text ∧ left = rest := by
          simpa [hdecode] using h
        obtain ⟨x, hs, hx, hread⟩ := exists_of_units hunits
        refine ⟨x, hs, hx, fun rest' => ?_⟩
        simp [stringLiteral, hread, hdecode]

/-- So is one that is passed over. -/
theorem exists_of_skipLiteral {s rest : List Char} (h : skipLiteral s = .ok rest) :
    ∃ x, s = x ++ rest ∧ Unbroken x ∧ ∀ rest', skipLiteral (x ++ rest') = .ok rest' := by
  rw [skipLiteral] at h
  cases hunits : units s with
  | mk us stop =>
    rw [hunits] at h
    cases stop with
    | broken fault => simp at h
    | closed left =>
      obtain rfl : left = rest := by simpa using h
      obtain ⟨x, hs, hx, hread⟩ := exists_of_units hunits
      exact ⟨x, hs, hx, fun rest' => by simp [skipLiteral, hread]⟩

/-! ### Numbers -/

/-- **What does not go on with a number**: its first character is no digit and no point, and does
not begin an exponent. -/
def Ends (rest : List Char) : Prop :=
  ∀ c ∈ rest.head?, c.isDigit = false ∧ c ≠ '.' ∧ c ≠ 'e' ∧ c ≠ 'E'

/-- Some digits stand before what is no digit. -/
theorem eq_of_someDigits {s ds rest : List Char} (h : someDigits s = .ok (ds, rest)) :
    s = ds ++ rest ∧ (∀ c ∈ ds, c.isDigit = true) ∧ ds ≠ [] := by
  have hcut : ds = s.takeWhile Char.isDigit ∧ rest = s.dropWhile Char.isDigit ∧ ds ≠ [] := by
    rw [someDigits, digits] at h
    split at h
    case h_1 => simp at h
    case h_2 => simp at h
    case h_3 hnil hcons =>
      obtain ⟨rfl, rfl⟩ := Prod.mk.inj (Except.ok.inj h)
      refine ⟨rfl, rfl, fun hempty => ?_⟩
      cases hrest : s.dropWhile Char.isDigit with
      | nil => exact hnil (by rw [hempty, hrest])
      | cons c t => exact hcons c t (by rw [hempty, hrest])
  obtain ⟨rfl, rfl, hne⟩ := hcut
  exact ⟨List.takeWhile_append_dropWhile.symm, fun c hc => List.mem_takeWhile_imp hc, hne⟩

/-- The digits before the point stand before what is no digit, without a leading zero. -/
theorem eq_of_wholeDigits {s ds rest : List Char} (h : wholeDigits s = .ok (ds, rest)) :
    s = ds ++ rest ∧ (∀ c ∈ ds, c.isDigit = true) ∧ ds ≠ [] ∧ ∀ d ds', ds ≠ '0' :: d :: ds' := by
  rw [wholeDigits.eq_def] at h
  split at h
  case h_1 c t =>
    split at h
    case isTrue => simp at h
    case isFalse =>
      obtain ⟨rfl, rfl⟩ := Prod.mk.inj (Except.ok.inj h)
      exact ⟨rfl, by simp, by simp, by simp⟩
  case h_2 hzero =>
    obtain ⟨rfl, hdigits, hne⟩ := eq_of_someDigits h
    refine ⟨rfl, hdigits, hne, ?_⟩
    rintro d ds' rfl
    exact hzero d (ds' ++ rest) rfl

/-- Digits without a leading zero are read before what is no digit. -/
theorem wholeDigits_append {ds rest : List Char} (hds : ∀ c ∈ ds, c.isDigit = true) (hne : ds ≠ [])
    (hzero : ∀ d ds', ds ≠ '0' :: d :: ds') (hrest : ∀ c ∈ rest.head?, c.isDigit = false) :
    wholeDigits (ds ++ rest) = .ok (ds, rest) := by
  rw [wholeDigits.eq_def]
  split
  case h_2 => exact someDigits_append hrest hds hne
  case h_1 c t heq =>
    obtain ⟨d, ds, rfl⟩ := List.exists_cons_of_ne_nil hne
    cases ds with
    | nil =>
      obtain ⟨rfl, rfl⟩ : d = '0' ∧ rest = c :: t := by simpa using heq
      rw [if_neg (by simp [hrest c rfl])]
    | cons d' ds =>
      obtain ⟨rfl, -⟩ := List.cons.inj heq
      exact absurd rfl (hzero d' ds)

/-- **The digits after the point** are read from their own characters and the point, before what is
neither a digit nor a point. -/
theorem exists_of_fractionDigits {s rest : List Char} {fraction : Option (List Char)}
    (h : fractionDigits s = .ok (fraction, rest)) :
    ∃ x, s = x ++ rest ∧ Unbroken x ∧
      ∀ rest', (∀ c ∈ rest'.head?, c.isDigit = false ∧ c ≠ '.') →
        fractionDigits (x ++ rest') = .ok (fraction, rest') ∧
        ∀ c ∈ (x ++ rest').head?, c.isDigit = false := by
  rw [fractionDigits.eq_def] at h
  split at h
  case h_1 t =>
    obtain ⟨⟨ds, left⟩, hds, heq⟩ := bind_eq_ok_iff.1 h
    obtain ⟨rfl, rfl⟩ := Prod.mk.inj (Except.ok.inj heq)
    obtain ⟨rfl, hdigits, hne⟩ := eq_of_someDigits hds
    refine ⟨'.' :: ds, rfl, .cons rfl (.of_digits hdigits), fun rest' hrest' => ⟨?_, by simp⟩⟩
    have hsome := someDigits_append (fun c hc => (hrest' c hc).1) hdigits hne
    rw [List.cons_append, fractionDigits, hsome]
    rfl
  case h_2 =>
    obtain ⟨rfl, rfl⟩ := Prod.mk.inj (Except.ok.inj h)
    refine ⟨[], rfl, .nil, fun rest' hrest' => ⟨?_, fun c hc => (hrest' c hc).1⟩⟩
    rw [List.nil_append, fractionDigits.eq_def]
    split
    case h_1 => exact absurd rfl (hrest' _ rfl).2
    case h_2 => rfl

/-- An exponent is read before what is no digit, with either sign and without one. -/
theorem exponentDigits_append {c : Char} (hc : c = 'e' ∨ c = 'E') {ds rest : List Char}
    (hds : ∀ c ∈ ds, c.isDigit = true) (hne : ds ≠ [])
    (hrest : ∀ c ∈ rest.head?, c.isDigit = false) :
    exponentDigits (c :: '+' :: (ds ++ rest)) = .ok (some (false, ds), rest) ∧
      exponentDigits (c :: '-' :: (ds ++ rest)) = .ok (some (true, ds), rest) ∧
      exponentDigits (c :: (ds ++ rest)) = .ok (some (false, ds), rest) := by
  have hsome := someDigits_append hrest hds hne
  -- a digit is no sign
  have hsign : ∀ c, c.isDigit = false → ∀ t, ds ++ rest = c :: t → False := by
    intro c hc t heq
    cases ds with
    | nil => exact hne rfl
    | cons d ds =>
      obtain ⟨rfl, -⟩ := List.cons.inj heq
      rw [hds d List.mem_cons_self] at hc
      contradiction
  refine ⟨?_, ?_, ?_⟩
  · rw [exponentDigits, if_pos hc, hsome]
    rfl
  · rw [exponentDigits, if_pos hc, hsome]
    rfl
  · rw [exponentDigits, if_pos hc, hsome]
    · rfl
    · exact hsign '+' rfl
    · exact hsign '-' rfl

/-- There is no exponent in what does not go on with a number. -/
theorem exponentDigits_of_ends {rest : List Char} (h : Ends rest) :
    exponentDigits rest = .ok (none, rest) ∧
      ∀ c ∈ rest.head?, c.isDigit = false ∧ c ≠ '.' := by
  refine ⟨?_, fun c hc => ⟨(h c hc).1, (h c hc).2.1⟩⟩
  cases rest with
  | nil => rfl
  | cons c t =>
    obtain ⟨-, -, hlow, hhigh⟩ := h c rfl
    simp [exponentDigits, hlow, hhigh]

/-- **An exponent** is read from its own characters, before what does not go on with a number. -/
theorem exists_of_exponentDigits {s rest : List Char} {exponent : Option (Bool × List Char)}
    (h : exponentDigits s = .ok (exponent, rest)) :
    ∃ x, s = x ++ rest ∧ Unbroken x ∧ ∀ rest', Ends rest' →
      exponentDigits (x ++ rest') = .ok (exponent, rest') ∧
      ∀ c ∈ (x ++ rest').head?, c.isDigit = false ∧ c ≠ '.' := by
  rw [exponentDigits.eq_def] at h
  split at h
  case h_2 =>
    obtain ⟨rfl, rfl⟩ := Prod.mk.inj (Except.ok.inj h)
    exact ⟨[], rfl, .nil, fun rest' => exponentDigits_of_ends⟩
  case h_1 c t =>
    split at h
    case isFalse =>
      obtain ⟨rfl, rfl⟩ := Prod.mk.inj (Except.ok.inj h)
      exact ⟨[], rfl, .nil, fun rest' => exponentDigits_of_ends⟩
    case isTrue hc =>
      have hletter : isSpace c = false ∧ c.isDigit = false ∧ c ≠ '.' := by
        rcases hc with rfl | rfl <;> decide
      have hhead : ∀ (y rest' : List Char), ∀ d ∈ (c :: y ++ rest').head?,
          d.isDigit = false ∧ d ≠ '.' := by
        rintro y rest' _ ⟨⟩
        exact hletter.2
      split at h
      all_goals
        obtain ⟨⟨ds, left⟩, hds, heq⟩ := bind_eq_ok_iff.1 h
        obtain ⟨rfl, rfl⟩ := Prod.mk.inj (Except.ok.inj heq)
        obtain ⟨rfl, hdigits, hne⟩ := eq_of_someDigits hds
        have hread := fun rest' (hrest' : Ends rest') =>
          exponentDigits_append hc hdigits hne fun d hd => (hrest' d hd).1
      · exact ⟨c :: '+' :: ds, rfl, .cons hletter.1 (.cons rfl (.of_digits hdigits)),
          fun rest' hrest' => ⟨(hread rest' hrest').1, hhead _ _⟩⟩
      · exact ⟨c :: '-' :: ds, rfl, .cons hletter.1 (.cons rfl (.of_digits hdigits)),
          fun rest' hrest' => ⟨(hread rest' hrest').2.1, hhead _ _⟩⟩
      · exact ⟨c :: ds, rfl, .cons hletter.1 (.of_digits hdigits),
          fun rest' hrest' => ⟨(hread rest' hrest').2.2, hhead _ _⟩⟩

/-- **Numbers behind their sign**: the digits before the point, those after it and the exponent. -/
def unsigned (negative : Bool) (s : List Char) : Except Fault (Numeral × List Char) := do
  let (whole, s) ← wholeDigits s
  let (fraction, s) ← fractionDigits s
  let (exponent, s) ← exponentDigits s
  return (⟨negative, whole, fraction, exponent⟩, s)

theorem numeral_minus (s : List Char) : numeral ('-' :: s) = unsigned true s := rfl

/-- A number need not have a sign. -/
theorem numeral_of_ne {s : List Char} (h : ∀ t, s ≠ '-' :: t) : numeral s = unsigned false s := by
  rw [numeral.eq_def]
  split
  case h_1 negative t hsign =>
    split at hsign
    case h_1 u => exact absurd rfl (h u)
    case h_2 =>
      obtain ⟨rfl, rfl⟩ := Prod.mk.inj hsign
      rfl

/-- **A number behind its sign** is read from its own characters, the first of which is a digit.

**Proof sketch.** From its end: before what does not go on with a number stands the exponent, and
before that what neither is a digit nor a point; there the digits after the point end, and where
these begin there is no digit. -/
theorem exists_of_unsigned {negative : Bool} {s rest : List Char} {n : Numeral}
    (h : unsigned negative s = .ok (n, rest)) :
    ∃ d y, s = d :: y ++ rest ∧ d.isDigit = true ∧ Unbroken (d :: y) ∧
      ∀ rest', Ends rest' → unsigned negative (d :: y ++ rest') = .ok (n, rest') := by
  obtain ⟨⟨whole, t⟩, hwhole, h⟩ := bind_eq_ok_iff.1 h
  obtain ⟨⟨fraction, u⟩, hfraction, h⟩ := bind_eq_ok_iff.1 h
  obtain ⟨⟨exponent, left⟩, hexponent, h⟩ := bind_eq_ok_iff.1 h
  obtain ⟨rfl, rfl⟩ := Prod.mk.inj (Except.ok.inj h)
  obtain ⟨rfl, hdigits, hne, hzero⟩ := eq_of_wholeDigits hwhole
  obtain ⟨x, rfl, hx, hreadFraction⟩ := exists_of_fractionDigits hfraction
  obtain ⟨y, rfl, hy, hreadExponent⟩ := exists_of_exponentDigits hexponent
  obtain ⟨d, ds, rfl⟩ := List.exists_cons_of_ne_nil hne
  have hds : Unbroken (d :: ds) := .of_digits hdigits
  refine ⟨d, ds ++ (x ++ y), by simp, hdigits d List.mem_cons_self,
    by simpa using hds.append (hx.append hy), fun rest' hrest' => ?_⟩
  obtain ⟨hthird, hhead⟩ := hreadExponent rest' hrest'
  obtain ⟨hsecond, hhead⟩ := hreadFraction _ hhead
  have hfirst := wholeDigits_append hdigits hne hzero hhead
  have hsplit : d :: (ds ++ (x ++ y)) ++ rest' = d :: ds ++ (x ++ (y ++ rest')) := by simp
  rw [hsplit]
  exact bind_eq_ok_iff.2 ⟨_, hfirst, bind_eq_ok_iff.2 ⟨_, hsecond,
    bind_eq_ok_iff.2 ⟨_, hthird, rfl⟩⟩⟩

/-- **A number** is read from its own characters, before what does not go on with it. -/
theorem exists_of_numeral {s rest : List Char} {n : Numeral} (h : numeral s = .ok (n, rest)) :
    ∃ c y, s = c :: y ++ rest ∧ (c = '-' ∨ c.isDigit = true) ∧ Unbroken (c :: y) ∧
      ∀ rest', Ends rest' → numeral (c :: y ++ rest') = .ok (n, rest') := by
  by_cases hminus : ∃ t, s = '-' :: t
  · obtain ⟨t, rfl⟩ := hminus
    rw [numeral_minus] at h
    obtain ⟨d, y, rfl, -, hy, hread⟩ := exists_of_unsigned h
    exact ⟨'-', d :: y, rfl, .inl rfl, hy.cons rfl, hread⟩
  · rw [not_exists] at hminus
    rw [numeral_of_ne hminus] at h
    obtain ⟨d, y, rfl, hdigit, hy, hread⟩ := exists_of_unsigned h
    refine ⟨d, y, rfl, .inr hdigit, hy, fun rest' hrest' => ?_⟩
    rw [numeral_of_ne, hread rest' hrest']
    intro t heq
    exact hminus _ (by rw [List.cons_append, (List.cons.inj heq).1])

/-- So is its value, and a number that is passed over. -/
theorem exists_of_number {skipping : Bool} {s rest : List Char} {v : Json}
    (h : number skipping s = .ok (v, rest)) :
    ∃ c y, s = c :: y ++ rest ∧ (c = '-' ∨ c.isDigit = true) ∧ Unbroken (c :: y) ∧
      ∀ rest', Ends rest' → number skipping (c :: y ++ rest') = .ok (v, rest') := by
  rw [number] at h
  split at h
  case h_2 => simp at h
  case h_1 n left hnumeral =>
    obtain ⟨c, y, rfl, hc, hy, hread⟩ := exists_of_numeral hnumeral
    split at h
    case isTrue hskipping =>
      obtain ⟨rfl, rfl⟩ := Prod.mk.inj (Except.ok.inj h)
      refine ⟨c, y, rfl, hc, hy, fun rest' hrest' => ?_⟩
      rw [number, hread rest' hrest']
      simp [hskipping]
    case isFalse hskipping =>
      obtain ⟨found, hfound, heq⟩ := map_eq_ok_iff.1 h
      obtain ⟨rfl, rfl⟩ := Prod.mk.inj heq
      refine ⟨c, y, rfl, hc, hy, fun rest' hrest' => ?_⟩
      rw [number, hread rest' hrest']
      simp [hskipping, hfound, Except.map]

/-! ### Scalars -/

/-- **Looking ahead.** What the reader gives, it reads from the characters that it uses up, and from
the fact that what follows does not go on with a number. -/
def Scans {α : Type} (read : List Char → Except Fault (α × List Char)) : Prop :=
  ∀ s a rest, read s = .ok (a, rest) →
    ∃ x, s = x ++ rest ∧ Unbroken x ∧ ∀ rest', Ends rest' → read (x ++ rest') = .ok (a, rest')

/-- A string is read from its own characters, without its opening quote. -/
theorem text_scans (skipping : Bool) : Scans (text skipping) := by
  intro s v rest h
  rw [text] at h
  split at h
  case isTrue hskipping =>
    obtain ⟨left, hleft, heq⟩ := map_eq_ok_iff.1 h
    obtain ⟨rfl, rfl⟩ := Prod.mk.inj heq
    obtain ⟨x, hs, hx, hread⟩ := exists_of_skipLiteral hleft
    exact ⟨x, hs, hx, fun rest' _ => by simp [text, hskipping, hread, Except.map]⟩
  case isFalse hskipping =>
    obtain ⟨⟨found, left⟩, hfound, heq⟩ := map_eq_ok_iff.1 h
    obtain ⟨rfl, rfl⟩ := Prod.mk.inj heq
    obtain ⟨x, hs, hx, hread⟩ := exists_of_stringLiteral hfound
    exact ⟨x, hs, hx, fun rest' _ => by simp [text, hskipping, hread, Except.map]⟩

/-- A value that a word stands for is read from the word. -/
theorem exists_of_word {skipping : Bool} {c : Char} {word s rest : List Char} {found v : Json}
    (hsolid : ∀ d ∈ c :: word, isSpace d = false)
    (hscalar : ∀ t, scalar skipping (c :: t) = (expect word t).map (found, ·))
    (h : (expect word s).map (found, ·) = .ok (v, rest)) :
    ∃ x, c :: s = x ++ rest ∧ Unbroken x ∧
      ∀ rest', Ends rest' → scalar skipping (x ++ rest') = .ok (v, rest') := by
  obtain ⟨left, hleft, heq⟩ := map_eq_ok_iff.1 h
  obtain ⟨rfl, rfl⟩ := Prod.mk.inj heq
  refine ⟨c :: word, by rw [eq_append_of_expect hleft, List.cons_append], .of_forall hsolid,
    fun rest' _ => ?_⟩
  rw [List.cons_append, hscalar, expect_append]
  rfl

/-- **A scalar is read from its own characters.** -/
theorem scalar_scans (skipping : Bool) : Scans (scalar skipping) := by
  intro s v rest h
  rw [scalar.eq_def] at h
  split at h
  case h_1 => simp at h
  case h_2 => exact exists_of_word (forall_mem_of_all (by decide)) (fun _ => rfl) h
  case h_3 => exact exists_of_word (forall_mem_of_all (by decide)) (fun _ => rfl) h
  case h_4 => exact exists_of_word (forall_mem_of_all (by decide)) (fun _ => rfl) h
  case h_5 t =>
    obtain ⟨x, rfl, hx, hread⟩ := text_scans skipping _ _ _ h
    exact ⟨'"' :: x, rfl, hx.cons rfl, hread⟩
  case h_6 c t _ _ _ _ =>
    split at h
    case isFalse => simp at h
    case isTrue hc =>
      obtain ⟨d, y, hs, hd, hy, hread⟩ := exists_of_number h
      refine ⟨d :: y, hs, hy, fun rest' hrest' => ?_⟩
      rw [List.cons_append, scalar_eq_number hd]
      exact hread rest' hrest'

end PaneLayout.Json
