import PaneLayout.Json.Fault

set_option autoImplicit false

/-!
# Reading JSON numbers

A number without point and exponent that fits into 64 bits is whole; every other number becomes a
double. A double is read from the first digits that fit into 64 bits, multiplied or divided by a
power of ten, so its last bits need not be those of the nearest double.

## Main definitions

* `PaneLayout.Json.Numeral`: the parts of a number as written.
* `PaneLayout.Json.numeral`: cuts a number off a text.
* `PaneLayout.Json.Numeral.value`: the number it stands for.
-/

namespace PaneLayout.Json

/-- **Numbers as written.** The digits before the point, those after it, and the exponent with
its sign. -/
structure Numeral where
  negative : Bool
  whole : List Char
  fraction : Option (List Char)
  exponent : Option (Bool × List Char)
  deriving DecidableEq, Repr

/-- The decimal digits at the start of a text and the text behind them. -/
def digits (s : List Char) : List Char × List Char :=
  (s.takeWhile Char.isDigit, s.dropWhile Char.isDigit)

/-- At least one digit. -/
def someDigits (s : List Char) : Except Fault (List Char × List Char) :=
  match digits s with
  | ([], []) => .error .truncated
  | ([], _ :: _) => .error .malformed
  | found => .ok found

/-- The digits before the point: a leading zero stands alone. -/
def wholeDigits : List Char → Except Fault (List Char × List Char)
  | '0' :: c :: rest => if c.isDigit then .error .malformed else .ok (['0'], c :: rest)
  | s => someDigits s

/-- The digits after a point, if there is one. -/
def fractionDigits : List Char → Except Fault (Option (List Char) × List Char)
  | '.' :: rest => do
    let (ds, rest) ← someDigits rest
    return (some ds, rest)
  | s => .ok (none, s)

/-- The exponent, if there is one, with `true` for a negative sign. -/
def exponentDigits : List Char → Except Fault (Option (Bool × List Char) × List Char)
  | c :: rest =>
    if c = 'e' ∨ c = 'E' then
      match rest with
      | '+' :: rest => do
        let (ds, rest) ← someDigits rest
        return (some (false, ds), rest)
      | '-' :: rest => do
        let (ds, rest) ← someDigits rest
        return (some (true, ds), rest)
      | rest => do
        let (ds, rest) ← someDigits rest
        return (some (false, ds), rest)
    else .ok (none, c :: rest)
  | [] => .ok (none, [])

/-- **Cutting off a number.** -/
def numeral (s : List Char) : Except Fault (Numeral × List Char) := do
  let (negative, s) := match s with
    | '-' :: rest => (true, rest)
    | s => (false, s)
  let (whole, s) ← wholeDigits s
  let (fraction, s) ← fractionDigits s
  let (exponent, s) ← exponentDigits s
  return (⟨negative, whole, fraction, exponent⟩, s)

/-- The natural number that decimal digits stand for. -/
def digitsValue (ds : List Char) : Nat := Nat.ofDigitChars 10 ds 0

/-- Appends digits to a number as long as it fits into 64 bits, and gives the digits left. -/
def appendDigits (n : Nat) : List Char → Nat × List Char
  | [] => (n, [])
  | d :: ds =>
    let next := n * 10 + (d.toNat - '0'.toNat)
    if next < UInt64.size then appendDigits next ds else (n, d :: ds)

/-- Divides by powers of ten of at most 308 until the exponent is used up or nothing is left. -/
def scaleDown : Nat → Float → Nat → Float
  | 0, x, _ => x
  | fuel + 1, x, e =>
    if e ≤ 308 then x / Float.ofScientific 1 false e
    else if x == 0.0 then x
    else scaleDown fuel (x / 1e308) (e - 308)

/-- The double `n · 10 ^ e`; none if it is too large. -/
def scaled (n : Nat) (e : Int) : Option Float :=
  let x := n.toUInt64.toFloat
  if e < 0 then some (scaleDown 4 x (-e).toNat)
  else if n = 0 then some x
  else if e ≤ 308 then
    let y := x * Float.ofScientific 1 false e.toNat
    if y.isInf then none else some y
  else none

/-- The double behind a numeral; none if it is too large. -/
def Numeral.double (n : Numeral) : Option Float := do
  let (lead, dropped) := appendDigits 0 n.whole
  let fraction := n.fraction.getD []
  let (lead, unread) := appendDigits lead fraction
  let shift : Int := (dropped.length : Int) - ((fraction.length - unread.length : Nat) : Int)
  let magnitude ← match n.exponent with
    | none => scaled lead shift
    | some (below, ds) =>
      let e := digitsValue ds
      if e < UInt32.size / 2 then scaled lead (if below then shift - e else shift + e)
      else if lead ≠ 0 ∧ !below then none
      else some 0.0
  return if n.negative then -magnitude else magnitude

/-- The whole number behind a numeral, if it is written as one and fits into 64 bits. Zero with a
sign is not whole. -/
def Numeral.whole? (n : Numeral) : Option Int :=
  if n.fraction.isSome ∨ n.exponent.isSome then none
  else
    let m := digitsValue n.whole
    if n.negative then if 0 < m ∧ m ≤ UInt64.size / 2 then some (-(m : Int)) else none
    else if m < UInt64.size then some (m : Int) else none

/-- **The number behind a numeral.** A number beyond the doubles is malformed. -/
def Numeral.value (n : Numeral) : Except Fault Json :=
  match n.whole? with
  | some i => .ok (.int i)
  | none =>
    match n.double with
    | some x => .ok (.float x)
    | none => .error .malformed

end PaneLayout.Json
