import PaneLayout.Decimal.Nearest
import PaneLayout.Json.Basic

set_option autoImplicit false

/-!
# What plain scalars mean

A plain scalar may stand for nothing, a truth value or a number; otherwise it stands for its text.

## Main definitions

* `PaneLayout.Yaml.isNull`, `PaneLayout.Yaml.truth?`, `PaneLayout.Yaml.whole?`,
  `PaneLayout.Yaml.real?`: the readings of a text.
* `PaneLayout.Yaml.Meaning`, `PaneLayout.Yaml.meaning`: the first reading that fits.
-/

namespace PaneLayout.Yaml

/-- The words for nothing. -/
def isNull (text : List Char) : Bool :=
  ["null", "Null", "NULL", "~"].any (·.toList == text)

/-- The words for truth values. -/
def truth? (text : List Char) : Option Bool :=
  if ["true", "True", "TRUE"].any (·.toList == text) then some true
  else if ["false", "False", "FALSE"].any (·.toList == text) then some false
  else none

/-- The sign of a number, with `true` for minus, and the text behind it. -/
def sign : List Char → Bool × List Char
  | '+' :: s => (false, s)
  | '-' :: s => (true, s)
  | s => (false, s)

/-- Several digits of which the first is a zero, perhaps behind a sign, are no number. -/
def isZeroLed (text : List Char) : Bool :=
  match (sign text).2 with
  | '0' :: d :: ds => (d :: ds).all Char.isDigit
  | _ => false

/-- The value of a digit in the given base. -/
def digitIn? (base : Nat) (c : Char) : Option Nat :=
  let value? :=
    if c.isDigit then some (c.toNat - '0'.toNat)
    else if 'a' ≤ c ∧ c ≤ 'f' then some (c.toNat - 'a'.toNat + 10)
    else if 'A' ≤ c ∧ c ≤ 'F' then some (c.toNat - 'A'.toNat + 10)
    else none
  value?.filter (· < base)

/-- The number that the digits of a base stand for; there has to be one at least. -/
def natIn? (base : Nat) (ds : List Char) : Option Nat :=
  if ds.isEmpty then none
  else ds.foldlM (fun n d => (digitIn? base d).map (base * n + ·)) 0

/-- **Whole numbers:** decimal, or with a letter for the base 16, 8 or 2 behind a zero. -/
def whole? (text : List Char) : Option Int :=
  let (negative, s) := sign text
  let magnitude? :=
    match s with
    | '0' :: 'x' :: ds => natIn? 16 ds
    | '0' :: 'o' :: ds => natIn? 8 ds
    | '0' :: 'b' :: ds => natIn? 2 ds
    | ds => if isZeroLed text then none else natIn? 10 ds
  magnitude?.map fun n => if negative then -(n : Int) else n

/-- The exponent of a decimal number; none is zero. -/
def exponent? : List Char → Option Int
  | [] => some 0
  | c :: s =>
    if c = 'e' ∨ c = 'E' then
      let (negative, ds) := sign s
      (natIn? 10 ds).map fun n => if negative then -(n : Int) else n
    else none

/-- A decimal number without a sign: digits before and after a point, of which some may be missing,
and an exponent. -/
def decimal? (s : List Char) : Option Decimal :=
  let whole := s.takeWhile Char.isDigit
  let s := s.dropWhile Char.isDigit
  let (fraction, s) :=
    match s with
    | '.' :: s => (s.takeWhile Char.isDigit, s.dropWhile Char.isDigit)
    | s => ([], s)
  match natIn? 10 (whole ++ fraction), exponent? s with
  | some digits, some e => some ⟨digits, e - fraction.length⟩
  | _, _ => none

/-- **Real numbers.** The words for infinity and for no number, and decimal numbers that are not too
large. -/
def real? (text : List Char) : Option Float :=
  let (negative, s) := sign text
  if [".inf", ".Inf", ".INF"].any (·.toList == s) then
    some (if negative then -(1.0 / 0.0) else 1.0 / 0.0)
  else if [".nan", ".NaN", ".NAN"].any (·.toList == text) then some (0.0 / 0.0)
  else (decimal? s).bind fun d => d.toFloat?.map fun x => if negative then -x else x

/-- **Meanings.** What a plain scalar stands for. -/
inductive Meaning where
  | null
  | truth (value : Bool)
  | whole (value : Int)
  | real (value : Float)
  | text

/-- Whether a whole number has at most so many bits, with or without a sign. -/
def fits (bits : Nat) (n : Int) : Bool :=
  let bound : Int := twoTo bits
  decide (-bound ≤ 2 * n) && decide (n < bound)

/-- **The meaning of a plain scalar.** Whole numbers beyond 128 bits are read as real numbers. -/
def meaning (text : List Char) : Meaning :=
  if text.isEmpty || isNull text then .null
  else
    match truth? text, (whole? text).filter (fits 128) with
    | some b, _ => .truth b
    | none, some n => .whole n
    | none, none =>
      if isZeroLed text then .text
      else
        match real? text with
        | some x => .real x
        | none => .text

end PaneLayout.Yaml
