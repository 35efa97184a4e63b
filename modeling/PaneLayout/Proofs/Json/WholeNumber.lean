import PaneLayout.Proofs.Json.Consumption
import PaneLayout.Proofs.Json.RoundTrip

set_option autoImplicit false

/-!
# Whole numbers are read back

A whole number is printed with a sign if it is negative and without leading zeros. It is read back
if it fits into 64 bits, with or without a sign, and if what follows does not go on with it. Every
whole number that has been read fits.

## Main definitions

* `PaneLayout.Json.Fits` — the whole numbers that fit into 64 bits.
* `PaneLayout.Json.Numeral.ofInt` — the numeral of a whole number.

## Main results

* `PaneLayout.Json.fits_of_whole?` — a whole number that has been read fits.
* `PaneLayout.Json.numeral_intChars` — a whole number is cut off where it ends.
* `PaneLayout.Json.Readable.int` — a whole number that fits is readable.
-/

namespace PaneLayout.Json

/-- **Whole numbers of 64 bits**, with or without a sign. -/
def Fits (n : Int) : Prop := -(UInt64.size / 2 : Nat) ≤ n ∧ n < (UInt64.size : Nat)

/-- **A numeral is whole only if its number fits.** -/
theorem fits_of_whole? {n : Numeral} {i : Int} (h : n.whole? = some i) : Fits i := by
  rw [Numeral.whole?] at h
  split at h
  case isTrue => simp at h
  case isFalse =>
    dsimp only at h
    split at h
    case isTrue =>
      split at h
      case isFalse => simp at h
      case isTrue hrange =>
        obtain rfl := Option.some.inj h
        constructor <;> omega
    case isFalse =>
      split at h
      case isFalse => simp at h
      case isTrue hrange =>
        obtain rfl := Option.some.inj h
        constructor <;> omega

/-! ### Digits -/

/-- **No leading zeros.** A number begins with a digit, and only zero with the digit zero. -/
theorem toDigits_eq_cons (n : Nat) :
    ∃ d ds, Nat.toDigits 10 n = d :: ds ∧ d.isDigit = true ∧ (0 < n → d ≠ '0') := by
  induction n using Nat.strongRecOn with
  | ind n ih =>
    rcases Nat.lt_or_ge n 10 with hlt | hge
    · have hall : ∀ d < 10, (Nat.digitChar d).isDigit = true ∧ (0 < d → Nat.digitChar d ≠ '0') := by
        decide
      exact ⟨_, _, Nat.toDigits_of_lt_base hlt, hall n hlt⟩
    · obtain ⟨d, ds, hlead, hdigit, hne⟩ := ih (n / 10) (by omega)
      rw [Nat.toDigits_of_base_le (by decide) hge, hlead]
      exact ⟨d, _, rfl, hdigit, fun _ => hne (by omega)⟩

section Digits

variable {rest : List Char} (hrest : ∀ c ∈ rest.head?, c.isDigit = false)
include hrest

/-- Digits are cut off before what is no digit. -/
theorem digits_append {ds : List Char} (hds : ∀ c ∈ ds, c.isDigit = true) :
    digits (ds ++ rest) = (ds, rest) := by
  rw [digits, List.takeWhile_append_of_pos hds, List.dropWhile_append_of_pos hds]
  cases rest with
  | nil => simp
  | cons c rest => simp [hrest c rfl]

/-- At least one digit is cut off before what is no digit. -/
theorem someDigits_append {ds : List Char} (hds : ∀ c ∈ ds, c.isDigit = true) (hne : ds ≠ []) :
    someDigits (ds ++ rest) = .ok (ds, rest) := by
  rw [someDigits, digits_append hrest hds]
  cases ds with
  | nil => exact absurd rfl hne
  | cons d ds => rfl

/-- The digits of a whole number are cut off where it ends. -/
theorem wholeDigits_toDigits (n : Nat) :
    wholeDigits (Nat.toDigits 10 n ++ rest) = .ok (Nat.toDigits 10 n, rest) := by
  have hds : ∀ c ∈ Nat.toDigits 10 n, c.isDigit = true := fun c =>
    Nat.isDigit_of_mem_toDigits (by decide) (by decide)
  rw [wholeDigits.eq_def]
  split
  case h_2 => exact someDigits_append hrest hds Nat.toDigits_ne_nil
  case h_1 c t heq =>
    -- a zero stands alone, so what follows it is what follows the number
    obtain rfl : n = 0 := by
      by_contra hne
      obtain ⟨d, ds, hlead, -, hd⟩ := toDigits_eq_cons n
      rw [hlead] at heq
      exact hd (Nat.pos_of_ne_zero hne) (List.cons.inj heq).1
    obtain rfl : rest = c :: t := by simpa using heq
    simp [hrest c rfl]

end Digits

/-! ### Numbers -/

/-- What may follow a value is no digit. -/
theorem Follows.isDigit_head {rest : List Char} (h : Follows rest) :
    ∀ c ∈ rest.head?, c.isDigit = false := by
  intro c hc
  rcases h c hc with rfl | rfl | rfl <;> rfl

/-- The numeral that is written for a whole number. -/
def Numeral.ofInt : Int → Numeral
  | .ofNat n => ⟨false, Nat.toDigits 10 n, none, none⟩
  | .negSucc n => ⟨true, Nat.toDigits 10 (n + 1), none, none⟩

/-- **A whole number is cut off where it ends.** -/
theorem numeral_intChars (i : Int) {rest : List Char} (hrest : Follows rest) :
    numeral (intChars i ++ rest) = .ok (.ofInt i, rest) := by
  have hwhole := fun n => wholeDigits_toDigits hrest.isDigit_head n
  have hfraction : fractionDigits rest = .ok (none, rest) := by
    rw [fractionDigits.eq_def]
    split
    case h_1 => exact absurd (hrest _ rfl) (by decide)
    case h_2 => rfl
  have hexponent : exponentDigits rest = .ok (none, rest) := by
    rw [exponentDigits.eq_def]
    split
    case h_2 => rfl
    case h_1 c t =>
      rw [if_neg]
      rintro (rfl | rfl)
      · exact absurd (hrest _ rfl) (by decide)
      · exact absurd (hrest _ rfl) (by decide)
  rw [numeral.eq_def]
  cases i with
  | ofNat n =>
    -- the first character is a digit, and thus no sign
    obtain ⟨d, ds, hlead, hdigit, -⟩ := toDigits_eq_cons n
    split
    case h_1 negative t hsign =>
      obtain ⟨rfl, rfl⟩ : false = negative ∧ Nat.toDigits 10 n ++ rest = t := by
        split at hsign
        case h_1 u heq =>
          rw [intChars, hlead] at heq
          obtain ⟨rfl, -⟩ := List.cons.inj heq
          exact absurd hdigit (by decide)
        case h_2 => exact Prod.mk.inj hsign
      simp [bind, Except.bind, pure, Except.pure, hwhole, hfraction, hexponent, Numeral.ofInt]
  | negSucc n =>
    simp [intChars, bind, Except.bind, pure, Except.pure, hwhole, hfraction, hexponent,
      Numeral.ofInt]

/-- A whole number that fits is the number of its numeral. -/
theorem value_ofInt {i : Int} (h : Fits i) : (Numeral.ofInt i).value = .ok (.int i) := by
  obtain ⟨hlow, hhigh⟩ := h
  cases i with
  | ofNat n =>
    have hlt : n < UInt64.size := Int.ofNat_lt.1 hhigh
    have hwhole : (Numeral.ofInt (.ofNat n)).whole? = some (n : Int) := by
      simp [Numeral.whole?, Numeral.ofInt, digitsValue, Nat.ofDigitChars_ten_toDigits, hlt]
    rw [Numeral.value, hwhole]
    rfl
  | negSucc n =>
    have hle : n + 1 ≤ UInt64.size / 2 := by omega
    have hwhole : (Numeral.ofInt (.negSucc n)).whole? = some (-((n + 1 : Nat) : Int)) := by
      simp [Numeral.whole?, Numeral.ofInt, digitsValue, Nat.ofDigitChars_ten_toDigits, hle]
    rw [Numeral.value, hwhole]
    rfl

/-- A number is written with a sign or a digit at its start. -/
theorem intChars_eq_cons (i : Int) :
    ∃ c tail, intChars i = c :: tail ∧ (c = '-' ∨ c.isDigit = true) := by
  cases i with
  | negSucc n => exact ⟨'-', _, rfl, .inl rfl⟩
  | ofNat n =>
    obtain ⟨d, ds, hlead, hdigit, -⟩ := toDigits_eq_cons n
    exact ⟨d, ds, hlead, .inr hdigit⟩

/-- A sign or a digit begins a number. -/
theorem scalar_eq_number {skipping : Bool} {c : Char} (hc : c = '-' ∨ c.isDigit = true)
    (t : List Char) : scalar skipping (c :: t) = number skipping (c :: t) := by
  rw [scalar.eq_def]
  split
  case h_1 heq => simp at heq
  case h_6 heq =>
    obtain ⟨rfl, rfl⟩ := List.cons.inj heq
    exact if_pos hc
  all_goals
    rename_i heq
    obtain ⟨rfl, -⟩ := List.cons.inj heq
    exact absurd hc (by decide)

/-- **Whole numbers that fit are readable.** -/
theorem Readable.int {levels : Nat} {i : Int} (h : Fits i) : Readable levels (.int i) := by
  obtain ⟨c, tail, hchars, hc⟩ := intChars_eq_cons i
  have hspace : isSpace c = false := by
    by_contra hblank
    simp only [isSpace, Bool.not_eq_false, Bool.or_eq_true, beq_iff_eq] at hblank
    rcases hblank with ((rfl | rfl) | rfl) | rfl <;> exact absurd hc (by decide)
  have hbracket : c ≠ ']' ∧ c ≠ '[' ∧ c ≠ '{' := by
    refine ⟨?_, ?_, ?_⟩ <;> rintro rfl <;> exact absurd hc (by decide)
  refine .of_scalar hchars hspace hbracket fun rest hrest => ?_
  rw [chars, hchars, List.cons_append, scalar_eq_number hc, ← List.cons_append, ← hchars, number,
    numeral_intChars i hrest]
  simp [value_ofInt h, Except.map]

end PaneLayout.Json
