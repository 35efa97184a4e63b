import Mathlib.Data.List.TakeWhile
import Mathlib.Tactic.SplitIfs
import PaneLayout.Json.Reader
import PaneLayout.Proofs.Json.Literal

set_option autoImplicit false

/-!
# What a reader consumes

A text that was read as a string is at least as long as the literal that is written for it: no
escape is shorter than the one that the printer chooses. The same holds of arrays. A text is
therefore never read as a value that is longer in print, whatever is passed over on the way.

## Main definitions

* `PaneLayout.Json.Consumes` — a reader that uses up at least the cost of what it gives.
* `PaneLayout.Json.span` — the printed length of strings and of arrays of them.

## Main results

* `PaneLayout.Json.stringLiteral_consumes` — a literal is no shorter than the one printed.
* `PaneLayout.Json.value_consumes` — a value is read from a text that is no shorter than its span.
* `PaneLayout.Json.readFields_consumes` — an object is no shorter than what its fields consume.
-/

namespace PaneLayout.Json

/-! ### Results without fault -/

section Except

variable {ε α β : Type}

/-- A sequence of two computations succeeds if both do. -/
theorem bind_eq_ok_iff {x : Except ε α} {f : α → Except ε β} {b : β} :
    (x >>= f) = .ok b ↔ ∃ a, x = .ok a ∧ f a = .ok b := by
  cases x <;> simp [bind, Except.bind]

/-- A computation succeeds if it does before its result is changed. -/
theorem map_eq_ok_iff {x : Except ε α} {f : α → β} {b : β} :
    x.map f = .ok b ↔ ∃ a, x = .ok a ∧ f a = b := by
  cases x <;> simp [Except.map]

end Except

/-- **Consumption.** What a reader gives costs no more than the part of the text it has used up. -/
def Consumes {α : Type} (cost : α → Nat) (read : List Char → Except Fault (α × List Char)) : Prop :=
  ∀ s a rest, read s = .ok (a, rest) → cost a + rest.length ≤ s.length

/-- Whatever a reader consumes, it does not make the text longer. -/
theorem Consumes.free {α : Type} {cost : α → Nat}
    {read : List Char → Except Fault (α × List Char)} (h : Consumes cost read) :
    Consumes (fun _ => 0) read := by
  intro s a rest hread
  have hlength := h s a rest hread
  dsimp only
  omega

/-- Skipping blanks does not make a text longer. -/
theorem length_skipSpace_le (s : List Char) : (skipSpace s).length ≤ s.length :=
  (List.dropWhile_suffix isSpace).length_le

/-- Passing a word does not make a text longer. -/
theorem length_of_expect {word s rest : List Char} (h : expect word s = .ok rest) :
    rest.length ≤ s.length := by
  induction word generalizing s with
  | nil =>
    obtain rfl : s = rest := by simpa [expect] using h
    exact le_rfl
  | cons e word ih =>
    cases s with
    | nil => simp [expect] at h
    | cons c s =>
      rw [expect] at h
      split at h
      case isFalse => simp at h
      case isTrue =>
        have hrest := ih h
        rw [List.length_cons]
        omega

/-! ### Literals -/

/-- The length of what is written for a unit: of a character its escape, of a code unit its six
characters. -/
def LiteralUnit.width : LiteralUnit → Nat
  | .char c => (escape c).length
  | .code _ => 6

/-- The length of what is written for some units. -/
def widths : List LiteralUnit → Nat
  | [] => 0
  | u :: us => u.width + widths us

@[simp] theorem widths_nil : widths [] = 0 := rfl

@[simp] theorem widths_cons (u : LiteralUnit) (us : List LiteralUnit) :
    widths (u :: us) = u.width + widths us := rfl

/-- No escape is longer than that of a code unit. -/
theorem length_escape_le (c : Char) : (escape c).length ≤ 6 := by
  rw [escape]
  split_ifs <;> simp

/-- A character that has an escape of one letter is written with two characters at most. -/
theorem length_escape_of_shortEscape {e c : Char} (h : shortEscape e = some c) :
    (escape c).length ≤ 2 := by
  rw [shortEscape] at h
  split at h
  case isTrue he =>
    obtain rfl : e = c := by simpa using h
    rcases he with rfl | rfl | rfl <;> decide
  split at h
  · obtain rfl : '\x08' = c := by simpa using h
    decide
  split at h
  · obtain rfl : '\x0c' = c := by simpa using h
    decide
  split at h
  · obtain rfl : '\n' = c := by simpa using h
    decide
  split at h
  · obtain rfl : '\r' = c := by simpa using h
    decide
  split at h
  · obtain rfl : '\t' = c := by simpa using h
    decide
  · simp at h

/-- **Units** are cut off a text that is no shorter than what is written for them. -/
theorem widths_of_units {s rest : List Char} {us : List LiteralUnit}
    (h : units s = (us, .closed rest)) : widths us + 1 + rest.length ≤ s.length := by
  fun_induction units s generalizing us with
  | case2 t =>
    obtain ⟨rfl, rfl⟩ : [] = us ∧ t = rest := by simpa using h
    simp only [widths_nil, List.length_cons]
    omega
  | case4 a b c d t n hn vs stop hunits _ ih =>
    obtain ⟨rfl, rfl⟩ : .code n :: vs = us ∧ stop = .closed rest := by simpa using h
    have hrest := ih hunits
    simp only [widths_cons, LiteralUnit.width, List.length_cons]
    omega
  | case7 e t _ c hc vs stop hunits _ ih =>
    obtain ⟨rfl, rfl⟩ : .char c :: vs = us ∧ stop = .closed rest := by simpa using h
    have hrest := ih hunits
    have hshort := length_escape_of_shortEscape hc
    simp only [widths_cons, LiteralUnit.width, List.length_cons]
    omega
  | case10 c t hquote hbackslash hlow vs stop hunits ih =>
    obtain ⟨rfl, rfl⟩ : .char c :: vs = us ∧ stop = .closed rest := by simpa using h
    have hrest := ih hunits
    have hself : escape c = [c] := escape_eq_self_iff.2 ⟨hquote, hbackslash, by omega⟩
    simp only [widths_cons, LiteralUnit.width, List.length_cons, hself, List.length_nil]
    omega
  | _ => simp at h

/-- Units are written with at least as many characters as the text they stand for. -/
theorem length_of_decodeUnits {us : List LiteralUnit} {s : List Char}
    (h : decodeUnits us = .ok s) : (s.flatMap escape).length ≤ widths us := by
  fun_induction decodeUnits us generalizing s with
  | case1 =>
    obtain rfl : [] = s := by simpa using h
    simp
  | case2 c us ih =>
    obtain ⟨t, ht, rfl⟩ := map_eq_ok_iff.1 h
    have hrest := ih ht
    simp only [List.flatMap_cons, List.length_append, widths_cons, LiteralUnit.width]
    omega
  | case6 n _ _ m us _ ih =>
    obtain ⟨t, ht, rfl⟩ := map_eq_ok_iff.1 h
    have hrest := ih ht
    have hpair := length_escape_le (Char.ofNat (0x10000 + (n - 0xD800) * 0x400 + (m - 0xDC00)))
    simp only [List.flatMap_cons, List.length_append, widths_cons, LiteralUnit.width]
    omega
  | case8 n us _ _ ih =>
    obtain ⟨t, ht, rfl⟩ := map_eq_ok_iff.1 h
    have hrest := ih ht
    have hone := length_escape_le (Char.ofNat n)
    simp only [List.flatMap_cons, List.length_append, widths_cons, LiteralUnit.width]
    omega
  | _ => simp at h

/-- The length of a printed literal. -/
theorem length_quote (s : String) : (quote s).length = (s.toList.flatMap escape).length + 2 := by
  simp [quote]

/-- **A literal is no shorter than the one that is printed** for its text. The opening quote has
been read before. -/
theorem stringLiteral_consumes {s rest : List Char} {t : String}
    (h : stringLiteral s = .ok (t, rest)) : (quote t).length + rest.length ≤ s.length + 1 := by
  rw [stringLiteral] at h
  cases hunits : units s with
  | mk us stop =>
    rw [hunits] at h
    cases stop with
    | closed left =>
      dsimp only at h
      cases hdecode : decodeUnits us with
      | error lone => simp [hdecode] at h
      | ok text =>
        obtain ⟨rfl, rfl⟩ : String.ofList text = t ∧ left = rest := by simpa [hdecode] using h
        have hwidths := widths_of_units hunits
        have hlength := length_of_decodeUnits hdecode
        rw [length_quote, String.toList_ofList]
        omega
    | broken fault =>
      dsimp only at h
      split at h <;> simp at h

/-- Passing over a literal uses it up. -/
theorem length_of_skipLiteral {s rest : List Char} (h : skipLiteral s = .ok rest) :
    rest.length + 1 ≤ s.length := by
  rw [skipLiteral] at h
  cases hunits : units s with
  | mk us stop =>
    rw [hunits] at h
    cases stop with
    | closed left =>
      obtain rfl : left = rest := by simpa using h
      have hwidths := widths_of_units hunits
      omega
    | broken fault => simp at h

/-! ### Numbers -/

/-- Digits are part of the text. -/
theorem length_of_someDigits {s ds rest : List Char} (h : someDigits s = .ok (ds, rest)) :
    rest.length ≤ s.length := by
  have hdigits : rest = s.dropWhile Char.isDigit := by
    rw [someDigits, digits] at h
    split at h
    · simp at h
    · simp at h
    · simpa using (congrArg Prod.snd (Except.ok.inj h)).symm
  rw [hdigits]
  exact (List.dropWhile_suffix _).length_le

/-- The digits before the point are part of the text. -/
theorem length_of_wholeDigits {s ds rest : List Char} (h : wholeDigits s = .ok (ds, rest)) :
    rest.length ≤ s.length := by
  rw [wholeDigits.eq_def] at h
  split at h
  · split at h
    · simp at h
    · obtain ⟨-, rfl⟩ := by simpa using h
      simp
  · exact length_of_someDigits h

/-- The digits after the point are part of the text. -/
theorem length_of_fractionDigits {s rest : List Char} {ds : Option (List Char)}
    (h : fractionDigits s = .ok (ds, rest)) : rest.length ≤ s.length := by
  rw [fractionDigits.eq_def] at h
  split at h
  · obtain ⟨⟨found, left⟩, hfound, heq⟩ := bind_eq_ok_iff.1 h
    obtain ⟨-, rfl⟩ : _ ∧ left = rest := by simpa [pure, Except.pure] using heq
    have hlength := length_of_someDigits hfound
    rw [List.length_cons]
    omega
  · obtain ⟨-, rfl⟩ := by simpa using h
    exact Nat.le_refl _

/-- An exponent is part of the text. -/
theorem length_of_exponentDigits {s rest : List Char} {e : Option (Bool × List Char)}
    (h : exponentDigits s = .ok (e, rest)) : rest.length ≤ s.length := by
  rw [exponentDigits.eq_def] at h
  split at h
  case h_2 =>
    obtain ⟨-, rfl⟩ := by simpa using h
    exact Nat.le_refl _
  case h_1 c t =>
    split at h
    case isFalse =>
      obtain ⟨-, rfl⟩ := by simpa using h
      exact Nat.le_refl _
    case isTrue =>
      split at h
      all_goals
        obtain ⟨⟨found, left⟩, hfound, heq⟩ := bind_eq_ok_iff.1 h
        obtain ⟨-, rfl⟩ : _ ∧ left = rest := by simpa [pure, Except.pure] using heq
        have hlength := length_of_someDigits hfound
        simp only [List.length_cons]
        omega

/-- **A number is part of the text.** -/
theorem length_of_numeral {s rest : List Char} {n : Numeral} (h : numeral s = .ok (n, rest)) :
    rest.length ≤ s.length := by
  rw [numeral.eq_def] at h
  split at h
  case h_1 negative t hsign =>
    have hbehind : t.length ≤ s.length := by
      split at hsign
      · obtain ⟨-, rfl⟩ := Prod.mk.inj hsign
        simp
      · obtain ⟨-, rfl⟩ := Prod.mk.inj hsign
        exact Nat.le_refl _
    obtain ⟨⟨whole, t₁⟩, hwhole, h⟩ := bind_eq_ok_iff.1 h
    obtain ⟨⟨fraction, t₂⟩, hfraction, h⟩ := bind_eq_ok_iff.1 h
    obtain ⟨⟨exponent, t₃⟩, hexponent, h⟩ := bind_eq_ok_iff.1 h
    obtain ⟨-, rfl⟩ : _ ∧ t₃ = rest := by simpa [pure, Except.pure] using h
    have hfirst := length_of_wholeDigits hwhole
    have hsecond := length_of_fractionDigits hfraction
    have hthird := length_of_exponentDigits hexponent
    omega

/-! ### Values -/

mutual

/-- **Spans.** The printed length of a string, or of an array if only strings and arrays are in it;
everything else may be read from next to nothing. -/
def span : Json → Nat
  | .string s => (quote s).length
  | .array vs => 1 + itemsSpan vs
  | _ => 0

/-- The span of the items of an array and of its end. -/
def itemsSpan : List Json → Nat
  | [] => 1
  | v :: vs => span v + moreItemsSpan vs

/-- The span of the items of an array after the first, and of its end. -/
def moreItemsSpan : List Json → Nat
  | [] => 1
  | v :: vs => 1 + span v + moreItemsSpan vs

end

/-- The value of a number is not a string or an array. -/
theorem span_value {n : Numeral} {v : Json} (h : n.value = .ok v) : span v = 0 := by
  rw [Numeral.value] at h
  split at h
  · obtain rfl := Except.ok.inj h
    rfl
  · split at h
    · obtain rfl := Except.ok.inj h
      rfl
    · simp at h

/-- A number is part of the text, kept or passed over. -/
theorem number_consumes (skipping : Bool) : Consumes span (number skipping) := by
  intro s v rest h
  rw [number] at h
  split at h
  case h_2 => simp at h
  case h_1 n left hnumeral =>
    have hlength := length_of_numeral hnumeral
    obtain ⟨hspan, rfl⟩ : span v = 0 ∧ left = rest := by
      split at h
      · obtain ⟨rfl, rfl⟩ := Prod.mk.inj (Except.ok.inj h)
        exact ⟨rfl, rfl⟩
      · obtain ⟨found, hfound, heq⟩ := map_eq_ok_iff.1 h
        obtain ⟨rfl, rfl⟩ := Prod.mk.inj heq
        exact ⟨span_value hfound, rfl⟩
    omega

/-- A string is no shorter than the literal that is printed for it. Its opening quote has been read
before. -/
theorem text_consumes {skipping : Bool} {s rest : List Char} {v : Json}
    (h : text skipping s = .ok (v, rest)) : span v + rest.length ≤ s.length + 1 := by
  rw [text] at h
  split at h
  · obtain ⟨left, hleft, heq⟩ := map_eq_ok_iff.1 h
    obtain ⟨rfl, rfl⟩ := Prod.mk.inj heq
    have hlength := length_of_skipLiteral hleft
    simp only [span]
    omega
  · obtain ⟨⟨found, left⟩, hfound, heq⟩ := map_eq_ok_iff.1 h
    obtain ⟨rfl, rfl⟩ := Prod.mk.inj heq
    exact stringLiteral_consumes hfound

/-- **A scalar is no shorter than its span.** -/
theorem scalar_consumes (skipping : Bool) : Consumes span (scalar skipping) := by
  have hword : ∀ {word s : List Char} {found v : Json} {rest : List Char}, span found = 0 →
      (expect word s).map (found, ·) = .ok (v, rest) → span v + rest.length ≤ s.length := by
    intro word s found v rest hzero h
    obtain ⟨left, hleft, heq⟩ := map_eq_ok_iff.1 h
    obtain ⟨rfl, rfl⟩ := Prod.mk.inj heq
    rw [hzero, Nat.zero_add]
    exact length_of_expect hleft
  intro s v rest h
  rw [scalar.eq_def] at h
  split at h
  case h_1 => simp at h
  case h_2 => exact Nat.le_succ_of_le (hword rfl h)
  case h_3 => exact Nat.le_succ_of_le (hword rfl h)
  case h_4 => exact Nat.le_succ_of_le (hword rfl h)
  case h_5 => exact text_consumes h
  case h_6 =>
    split at h
    case isFalse => simp at h
    case isTrue => exact number_consumes skipping _ _ _ h

/-- Moving on to an item uses up a comma, unless it is the first; the end uses up a bracket. -/
theorem length_of_nextItem {first more : Bool} {s rest : List Char}
    (h : nextItem first s = .ok (more, rest)) :
    (if more && first then 0 else 1) + rest.length ≤ s.length := by
  have hskip := length_skipSpace_le s
  rw [nextItem] at h
  split at h
  case h_1 => simp at h
  case h_2 t heq =>
    obtain ⟨rfl, rfl⟩ := Prod.mk.inj (Except.ok.inj h)
    simp only [heq, List.length_cons] at hskip
    simp
    omega
  case h_3 c t _ heq =>
    simp only [heq, List.length_cons] at hskip
    split at h
    case isTrue hfirst =>
      obtain ⟨rfl, rfl⟩ := Prod.mk.inj (Except.ok.inj h)
      simp [hfirst]
      omega
    case isFalse hfirst =>
      have hlater := length_skipSpace_le t
      split at h
      case isFalse => simp at h
      case isTrue =>
        split at h
        case h_1 => simp at h
        case h_2 => simp at h
        case h_3 =>
          obtain ⟨rfl, rfl⟩ := Prod.mk.inj (Except.ok.inj h)
          simp [hfirst]
          omega

/-- A key is part of the text. -/
theorem length_of_memberKey {skipping : Bool} {s rest : List Char} {key : String}
    (h : memberKey skipping s = .ok (key, rest)) : rest.length ≤ s.length := by
  rw [memberKey.eq_def] at h
  split at h
  case h_1 => simp at h
  case h_3 => simp at h
  case h_2 t =>
    split at h
    · obtain ⟨found, hfound, heq⟩ := map_eq_ok_iff.1 h
      obtain ⟨rfl, rfl⟩ := Prod.mk.inj heq
      have hlength := length_of_skipLiteral hfound
      rw [List.length_cons]
      omega
    · have hlength := stringLiteral_consumes h
      rw [List.length_cons]
      omega

/-- Moving on to a member does not make a text longer. -/
theorem length_of_nextMember {skipping first : Bool} {s rest : List Char} {key : Option String}
    (h : nextMember skipping first s = .ok (key, rest)) : rest.length ≤ s.length := by
  have hskip := length_skipSpace_le s
  rw [nextMember] at h
  split at h
  case h_1 => simp at h
  case h_2 t heq =>
    obtain ⟨rfl, rfl⟩ := Prod.mk.inj (Except.ok.inj h)
    simp only [heq, List.length_cons] at hskip
    omega
  case h_3 c t _ heq =>
    split at h
    · obtain ⟨⟨k, left⟩, hfound, hsame⟩ := map_eq_ok_iff.1 h
      obtain ⟨rfl, rfl⟩ := Prod.mk.inj hsame
      have hlength := length_of_memberKey hfound
      rw [heq] at hskip
      omega
    · split at h
      case isFalse => simp at h
      case isTrue =>
        obtain ⟨⟨k, left⟩, hfound, hsame⟩ := map_eq_ok_iff.1 h
        obtain ⟨rfl, rfl⟩ := Prod.mk.inj hsame
        have hlength := length_of_memberKey hfound
        have hlater := length_skipSpace_le t
        simp only [heq, List.length_cons] at hskip
        omega

/-- Passing a colon uses it up. -/
theorem length_of_behindColon {s rest : List Char} (h : behindColon s = .ok rest) :
    rest.length + 1 ≤ s.length := by
  have hskip := length_skipSpace_le s
  rw [behindColon] at h
  split at h
  case h_1 => simp at h
  case h_3 => simp at h
  case h_2 t heq =>
    obtain rfl := Except.ok.inj h
    simp only [heq, List.length_cons] at hskip
    omega

section Step

variable {skipping : Bool} {steps : Nat}

/-- A value is no shorter than its span, if the items of arrays and the members of objects are. -/
theorem value_consumes_succ
    (hitems : ∀ levels, Consumes itemsSpan (items skipping steps levels true))
    (hmembers : ∀ levels, Consumes (fun _ => 0) (members skipping steps levels true))
    (levels : Nat) : Consumes span (value skipping (steps + 1) levels) := by
  intro s v rest h
  have hskip := length_skipSpace_le s
  rw [value] at h
  split at h
  case h_1 t heq =>
    simp only [heq, List.length_cons] at hskip
    cases levels with
    | zero => simp at h
    | succ levels =>
      obtain ⟨⟨vs, left⟩, hvs, hsame⟩ := map_eq_ok_iff.1 h
      obtain ⟨rfl, rfl⟩ := Prod.mk.inj hsame
      have hlength := hitems levels _ _ _ hvs
      rw [span]
      omega
  case h_2 t heq =>
    simp only [heq, List.length_cons] at hskip
    cases levels with
    | zero => simp at h
    | succ levels =>
      obtain ⟨⟨ms, left⟩, hms, hsame⟩ := map_eq_ok_iff.1 h
      obtain ⟨rfl, rfl⟩ := Prod.mk.inj hsame
      have hlength := hmembers levels _ _ _ hms
      have hzero : span (ofMembers ms) = 0 := by simp [ofMembers, span]
      dsimp only at hlength
      omega
  case h_3 =>
    have hlength := scalar_consumes skipping _ _ _ h
    omega

/-- Items are no shorter than their span, if one value is, and the items after the first are. -/
theorem items_consumes_succ {levels : Nat} (hvalue : Consumes span (value skipping steps levels))
    (hmore : Consumes moreItemsSpan (items skipping steps levels false)) (first : Bool) :
    Consumes (if first then itemsSpan else moreItemsSpan)
      (items skipping (steps + 1) levels first) := by
  intro s vs rest h
  rw [items] at h
  obtain ⟨⟨more, t⟩, hnext, h⟩ := bind_eq_ok_iff.1 h
  have hstep := length_of_nextItem hnext
  cases more with
  | false =>
    obtain ⟨rfl, rfl⟩ := Prod.mk.inj (Except.ok.inj h)
    cases first <;> simpa [itemsSpan, moreItemsSpan] using hstep
  | true =>
    obtain ⟨⟨v, u⟩, hv, h⟩ := bind_eq_ok_iff.1 h
    obtain ⟨⟨ws, left⟩, hws, h⟩ := bind_eq_ok_iff.1 h
    obtain ⟨rfl, rfl⟩ := Prod.mk.inj (Except.ok.inj h)
    have hone := hvalue _ _ _ hv
    have hothers := hmore _ _ _ hws
    cases first <;> simp [itemsSpan, moreItemsSpan] at hstep ⊢ <;> omega

/-- Members do not make a text longer, if values do not. -/
theorem members_consumes_succ {levels : Nat} (hvalue : Consumes span (value skipping steps levels))
    (hmore : Consumes (fun _ => 0) (members skipping steps levels false)) (first : Bool) :
    Consumes (fun _ => 0) (members skipping (steps + 1) levels first) := by
  intro s ms rest h
  rw [members] at h
  obtain ⟨⟨key, t⟩, hnext, h⟩ := bind_eq_ok_iff.1 h
  have hstep := length_of_nextMember hnext
  cases key with
  | none =>
    obtain ⟨rfl, rfl⟩ := Prod.mk.inj (Except.ok.inj h)
    simpa using hstep
  | some key =>
    obtain ⟨u, hcolon, h⟩ := bind_eq_ok_iff.1 h
    obtain ⟨⟨v, w⟩, hv, h⟩ := bind_eq_ok_iff.1 h
    obtain ⟨⟨ns, left⟩, hns, h⟩ := bind_eq_ok_iff.1 h
    obtain ⟨rfl, rfl⟩ := Prod.mk.inj (Except.ok.inj h)
    have hbehind := length_of_behindColon hcolon
    have hone := hvalue _ _ _ hv
    have hothers := hmore _ _ _ hns
    dsimp only at hothers ⊢
    omega

end Step

/-- **A value is no shorter than its span**, kept or passed over.

**Proof sketch.** Induction on the steps, for values, for the items of an array and for the members
of an object together. -/
theorem value_consumes (skipping : Bool) (steps levels : Nat) :
    Consumes span (value skipping steps levels) := by
  suffices hall : Consumes span (value skipping steps levels) ∧
      (∀ first, Consumes (if first then itemsSpan else moreItemsSpan)
        (items skipping steps levels first)) ∧
      ∀ first, Consumes (fun _ => 0) (members skipping steps levels first) from hall.1
  induction steps generalizing levels with
  | zero =>
    refine ⟨?_, fun first => ?_, fun first => ?_⟩ <;> intro s a rest h <;>
      simp [value, items, members] at h
  | succ steps ih =>
    have hitems := fun levels => (ih levels).2.1 true
    have hmembers := fun levels => (ih levels).2.2 true
    obtain ⟨hvalue, hmore, hothers⟩ := ih levels
    exact ⟨value_consumes_succ hitems hmembers levels, items_consumes_succ hvalue (hmore false),
      members_consumes_succ hvalue (hothers false)⟩

/-! ### Fields -/

/-- A value that is passed over is part of the text. -/
theorem length_of_skipValue {s rest : List Char} (h : skipValue s = .ok rest) :
    rest.length ≤ s.length := by
  obtain ⟨⟨v, left⟩, hvalue, rfl⟩ := map_eq_ok_iff.1 h
  have hlength := value_consumes _ _ _ _ _ _ hvalue
  dsimp only
  omega

/-- A text is no shorter than the literal that is printed for it. -/
theorem readString_consumes (expected : String) :
    Consumes (fun t => (quote t).length) (readString expected) := by
  intro s t rest h
  have hskip := length_skipSpace_le s
  rw [readString] at h
  split at h
  case h_2 => simp at h
  case h_1 u heq =>
    have hlength := stringLiteral_consumes h
    simp only [heq, List.length_cons] at hskip
    dsimp only
    omega

/-- The same where null may stand in place of the text. -/
theorem readOptionalString_consumes (expected : String) :
    Consumes (fun t => (t.map fun text => (quote text).length).getD 0)
      (readOptionalString expected) := by
  intro s t rest h
  have hskip := length_skipSpace_le s
  rw [readOptionalString] at h
  split at h
  case h_1 u heq =>
    obtain ⟨left, hleft, hsame⟩ := map_eq_ok_iff.1 h
    obtain ⟨rfl, rfl⟩ := Prod.mk.inj hsame
    have hlength := length_of_expect hleft
    simp only [heq, List.length_cons] at hskip
    simp
    omega
  case h_2 =>
    obtain ⟨⟨text, left⟩, htext, hsame⟩ := map_eq_ok_iff.1 h
    obtain ⟨rfl, rfl⟩ := Prod.mk.inj hsame
    have hlength := readString_consumes expected _ _ _ htext
    dsimp only at hlength
    simp
    omega

/-- The end of an array does not make a text longer. -/
theorem length_of_endItems {s rest : List Char} (h : endItems s = .ok rest) :
    rest.length ≤ s.length := by
  have hskip := length_skipSpace_le s
  rw [endItems] at h
  split at h
  case h_1 => simp at h
  case h_3 => simp at h
  case h_2 t heq =>
    obtain rfl := Except.ok.inj h
    simp only [heq, List.length_cons] at hskip
    omega

/-- **An object is no shorter than what its fields consume.** If the value of each field raises the
cost of what has been found by no more than it uses up, so does the whole object. -/
theorem readFields_consumes {σ : Type} {cost : σ → Nat} {field : FieldReader σ}
    (hfield : ∀ key found read, field key found = .ok read →
      Consumes (fun found' => cost found' - cost found) read) (steps : Nat) (first : Bool)
    (found : σ) :
    Consumes (fun found' => cost found' - cost found) (readFields field steps first found) := by
  induction steps generalizing first found with
  | zero =>
    intro s found' rest h
    simp [readFields] at h
  | succ steps ih =>
    intro s found' rest h
    rw [readFields] at h
    obtain ⟨⟨key, t⟩, hnext, h⟩ := bind_eq_ok_iff.1 h
    have hstep := length_of_nextMember hnext
    cases key with
    | none =>
      obtain ⟨rfl, rfl⟩ := Prod.mk.inj (Except.ok.inj h)
      simpa using hstep
    | some key =>
      obtain ⟨read, hread, h⟩ := bind_eq_ok_iff.1 h
      obtain ⟨u, hcolon, h⟩ := bind_eq_ok_iff.1 h
      obtain ⟨⟨middle, w⟩, hone, h⟩ := bind_eq_ok_iff.1 h
      have hbehind := length_of_behindColon hcolon
      have hmember := hfield key found read hread _ _ _ hone
      have hothers := ih _ _ _ _ _ h
      dsimp only at hmember hothers ⊢
      omega

/-- What a document holds has been read. -/
theorem eq_ok_of_finish {α : Type} {x : Except Fault (α × List Char)} {a : α}
    (h : finish x = .ok a) : ∃ rest, x = .ok (a, rest) := by
  cases x with
  | error fault => simp [finish] at h
  | ok found =>
    obtain ⟨b, rest⟩ := found
    rw [finish] at h
    split at h
    case isFalse => simp at h
    case isTrue =>
      obtain rfl := Except.ok.inj h
      exact ⟨rest, rfl⟩

/-- A record consumes what its two forms consume. -/
theorem readRecord_consumes {α : Type} {cost : α → Nat} {expectation : String}
    {ofArray ofObject : Nat → List Char → Except Fault (α × List Char)}
    (harray : ∀ levels, Consumes cost (ofArray levels))
    (hobject : ∀ levels, Consumes cost (ofObject levels)) (levels : Nat) :
    Consumes cost (readRecord expectation ofArray ofObject levels) := by
  intro s a rest h
  have hskip := length_skipSpace_le s
  rw [readRecord.eq_def] at h
  split at h
  case h_4 t levels heq =>
    have hlength := harray _ _ _ _ h
    simp only [heq, List.length_cons] at hskip
    omega
  case h_5 t levels heq =>
    have hlength := hobject _ _ _ _ h
    simp only [heq, List.length_cons] at hskip
    omega
  all_goals simp at h

end PaneLayout.Json
