import Mathlib.Tactic.SplitIfs
import PaneLayout.Json.Printer
import PaneLayout.Json.StringLiteral

set_option autoImplicit false

/-!
# String literals

A text is written as a literal character by character: most characters stand for themselves, the
others become an escape that begins with a backslash. Reading a literal gives back the text that was
written, whatever follows the closing quote.

## Main results

* `PaneLayout.Json.escape_eq_self_iff`, `PaneLayout.Json.escape_of_ne` — the characters that stand
  for themselves, and the escapes of the others.
* `PaneLayout.Json.units_escape` — a character that has been written is read as one unit.
* `PaneLayout.Json.stringLiteral_escape` — reading gives back what was written.
-/

namespace PaneLayout

/-- What holds of every character of a given text is decided for one after the other. (Left to
itself, the decision would go through all characters that there are.) -/
theorem forall_mem_of_all {p : Char → Prop} [DecidablePred p] {s : List Char}
    (h : s.all (fun c => decide (p c)) = true) : ∀ c ∈ s, p c := by
  simpa using h

namespace Json

/-! ### Escapes -/

/-- What may stand behind the backslash of an escape that is written. -/
def escapeAlphabet : List Char := "\"\\bfnrtu0123456789abcdef".toList

/-- A hexadecimal digit that is written has its value. -/
theorem hexNumber_hexDigit {n : Nat} (h : n < 0x20) :
    hexNumber '0' '0' (hexDigit (n / 16)) (hexDigit (n % 16)) = some n := by
  have hall : ∀ m < 0x20, hexNumber '0' '0' (hexDigit (m / 16)) (hexDigit (m % 16)) = some m := by
    decide
  exact hall n h

/-- Hexadecimal digits are written in lower case. -/
theorem hexDigit_mem {n : Nat} (h : n < 16) : hexDigit n ∈ escapeAlphabet := by
  have hall : ∀ m < 16, hexDigit m ∈ escapeAlphabet := by decide
  exact hall n h

/-- **Which characters stand for themselves**: all but the quote, the backslash and the control
characters. -/
theorem escape_eq_self_iff {c : Char} :
    escape c = [c] ↔ c ≠ '"' ∧ c ≠ '\\' ∧ 0x20 ≤ c.toNat := by
  by_cases hquote : c = '"'
  · simp [escape, hquote]
  by_cases hbackslash : c = '\\'
  · simp [escape, hbackslash]
  by_cases hlow : c.toNat < 0x20
  · have hlong : (escape c).length ≠ 1 := by
      rw [escape, if_neg hquote, if_neg hbackslash, if_pos hlow]
      split_ifs <;> simp
    constructor
    · intro h
      rw [h] at hlong
      exact absurd rfl hlong
    · rintro ⟨-, -, hhigh⟩
      omega
  · have hself : escape c = [c] := by
      rw [escape, if_neg hquote, if_neg hbackslash, if_neg hlow]
    exact ⟨fun _ => ⟨hquote, hbackslash, by omega⟩, fun _ => hself⟩

/-- **Escapes.** A character that does not stand for itself is written as a backslash and letters,
digits, a quote or a backslash. -/
theorem escape_of_ne {c : Char} (h : escape c ≠ [c]) :
    ∃ tail, escape c = '\\' :: tail ∧ ∀ d ∈ tail, d ∈ escapeAlphabet := by
  rw [Ne, escape_eq_self_iff] at h
  rw [escape]
  split
  · exact ⟨_, rfl, forall_mem_of_all (by decide)⟩
  split
  · exact ⟨_, rfl, forall_mem_of_all (by decide)⟩
  split
  case isFalse hquote hbackslash hlow => exact absurd ⟨hquote, hbackslash, by omega⟩ h
  case isTrue hlow =>
    split
    · exact ⟨_, rfl, forall_mem_of_all (by decide)⟩
    split
    · exact ⟨_, rfl, forall_mem_of_all (by decide)⟩
    split
    · exact ⟨_, rfl, forall_mem_of_all (by decide)⟩
    split
    · exact ⟨_, rfl, forall_mem_of_all (by decide)⟩
    split
    · exact ⟨_, rfl, forall_mem_of_all (by decide)⟩
    · refine ⟨_, rfl, fun d hd => ?_⟩
      simp only [List.mem_cons, List.not_mem_nil, or_false] at hd
      rcases hd with rfl | rfl | rfl | rfl | rfl
      · decide
      · decide
      · decide
      · exact hexDigit_mem (by omega)
      · exact hexDigit_mem (by omega)

/-- **The characters of a literal.** None is a control character, and beyond ASCII none stands there
but the character itself. -/
theorem mem_escape {c d : Char} (h : d ∈ escape c) : 0x20 ≤ d.toNat ∧ (d = c ∨ d.toNat < 0x80) := by
  have halphabet : ∀ e ∈ '\\' :: escapeAlphabet, 0x20 ≤ e.toNat ∧ e.toNat < 0x80 :=
    forall_mem_of_all (by decide)
  by_cases hc : escape c = [c]
  · obtain rfl : d = c := by simpa [hc] using h
    exact ⟨(escape_eq_self_iff.1 hc).2.2, .inl rfl⟩
  · obtain ⟨tail, htail, hmem⟩ := escape_of_ne hc
    rw [htail] at h
    have hd : d ∈ '\\' :: escapeAlphabet := by
      rcases List.mem_cons.1 h with rfl | h
      · exact List.mem_cons_self
      · exact List.mem_cons_of_mem _ (hmem d h)
    obtain ⟨hlow, hhigh⟩ := halphabet d hd
    exact ⟨hlow, .inr hhigh⟩

/-! ### Reading what was written -/

/-- An escape of one letter is cut off as one unit. -/
theorem units_shortEscape {e x : Char} (he : e ≠ 'u') (hx : shortEscape e = some x)
    (t : List Char) : units ('\\' :: e :: t) = (.char x :: (units t).1, (units t).2) := by
  rw [units.eq_def]
  simp [he, hx]

/-- **One unit for each character.** A character that has been written is cut off as one unit, which
stands for it. -/
theorem units_escape (c : Char) :
    ∃ u, (∀ t, units (escape c ++ t) = (u :: (units t).1, (units t).2)) ∧
      ∀ us, decodeUnits (u :: us) = (decodeUnits us).map (c :: ·) := by
  have hof : Char.ofNat c.toNat = c := Char.ofNat_toNat c
  have hshort : ∀ e, e ≠ 'u' → shortEscape e = some c →
      ∃ u, (∀ t, units (['\\', e] ++ t) = (u :: (units t).1, (units t).2)) ∧
        ∀ us, decodeUnits (u :: us) = (decodeUnits us).map (c :: ·) :=
    fun e he hc => ⟨.char c, units_shortEscape he hc, fun us => rfl⟩
  rw [escape]
  split
  case isTrue hc => exact hshort '"' (by decide) (by rw [hc]; rfl)
  split
  case isTrue hc => exact hshort '\\' (by decide) (by rw [hc]; rfl)
  split
  case isFalse hquote hbackslash hlow =>
    refine ⟨.char c, fun t => ?_, fun us => rfl⟩
    rw [List.singleton_append, units.eq_def]
    simp [hquote, hbackslash, hlow]
  case isTrue hquote hbackslash hlow =>
    split
    case isTrue hc => exact hshort 'b' (by decide) (by rw [← hof, hc]; rfl)
    split
    case isTrue hc => exact hshort 'f' (by decide) (by rw [← hof, hc]; rfl)
    split
    case isTrue hc => exact hshort 'n' (by decide) (by rw [hc]; rfl)
    split
    case isTrue hc => exact hshort 'r' (by decide) (by rw [hc]; rfl)
    split
    case isTrue hc => exact hshort 't' (by decide) (by rw [hc]; rfl)
    · refine ⟨.code c.toNat, fun t => ?_, fun us => ?_⟩
      · rw [units.eq_def]
        simp [hexNumber_hexDigit hlow]
      · have hfirst : ¬ (0xDC00 ≤ c.toNat ∧ c.toNat < 0xE000) := by omega
        have hsecond : ¬ (0xD800 ≤ c.toNat ∧ c.toNat < 0xDC00) := by omega
        rw [decodeUnits.eq_def]
        simp [hfirst, hsecond, hof]

/-- The units of a literal that has been written, and how it ends. -/
theorem units_flatMap_escape (s rest : List Char) :
    ∃ us, units (s.flatMap escape ++ '"' :: rest) = (us, .closed rest) ∧
      decodeUnits us = .ok s := by
  induction s with
  | nil =>
    refine ⟨[], ?_, rfl⟩
    rw [units.eq_def]
    simp
  | cons c s ih =>
    obtain ⟨us, hunits, hdecode⟩ := ih
    obtain ⟨u, hunit, hone⟩ := units_escape c
    refine ⟨u :: us, ?_, ?_⟩
    · rw [List.flatMap_cons, List.append_assoc, hunit, hunits]
    · rw [hone, hdecode]
      rfl

/-- **Reading gives back what was written**, whatever stands behind the closing quote. -/
theorem stringLiteral_escape (s : String) (rest : List Char) :
    stringLiteral (s.toList.flatMap escape ++ '"' :: rest) = .ok (s, rest) := by
  obtain ⟨us, hunits, hdecode⟩ := units_flatMap_escape s.toList rest
  simp [stringLiteral, hunits, hdecode]

end Json

end PaneLayout
