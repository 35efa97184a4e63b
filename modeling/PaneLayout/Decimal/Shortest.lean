set_option autoImplicit false

/-!
# Shortest decimals

A binary floating-point number is written with the fewest decimal digits that still read back as
the same number. Every number `m · 2 ^ q` has an interval of reals that round to it; the shortest
decimal is the nearest point of the coarsest decimal grid that meets this interval. All of it is
exact arithmetic on natural numbers.

## Main definitions

* `PaneLayout.Decimal`: a decimal `digits · 10 ^ exponent`.
* `PaneLayout.Binary`: a finite binary number with its rounding interval.
* `PaneLayout.Binary.shortest`: the shortest decimal of a binary number.
* `PaneLayout.Binary.ofFloat`: the magnitude of a finite double.
-/

namespace PaneLayout

/-- **Decimals.** The number `digits · 10 ^ exponent`. -/
structure Decimal where
  digits : Nat
  exponent : Int
  deriving DecidableEq, Repr

/-- A power of two. -/
def twoTo (n : Nat) : Nat := Nat.pow 2 n

/-- A power of ten. -/
def tenTo (n : Nat) : Nat := Nat.pow 10 n

/-- The number of decimal digits of a positive number. -/
def Decimal.width (n : Nat) : Nat := (Nat.toDigits 10 n).length

/-- Drops at most `fuel` zeros from the end of the digits. -/
def Decimal.trimZeros : Nat → Decimal → Decimal
  | 0, d => d
  | fuel + 1, d =>
    if d.digits ≠ 0 ∧ d.digits % 10 = 0 then trimZeros fuel ⟨d.digits / 10, d.exponent + 1⟩ else d

/-- **Binary numbers.** The number `mantissa · 2 ^ exponent`. The gap to the next smaller number
is half of the gap to the next larger one if `narrowBelow` holds. -/
structure Binary where
  mantissa : Nat
  exponent : Int
  narrowBelow : Bool
  deriving DecidableEq, Repr

namespace Binary

/-- A quarter of the binary number as a fraction: numerator without the mantissa, denominator. -/
def quarterUnit (b : Binary) : Nat × Nat :=
  let e := b.exponent - 2
  if 0 ≤ e then (twoTo e.toNat, 1) else (1, twoTo (-e).toNat)

/-- The least `k` with `num / den < 10 ^ k`, for a positive fraction. -/
def magnitude (num den : Nat) : Int :=
  if den ≤ num then (Decimal.width (num / den) : Int)
  else 1 - (Decimal.width ((den + num - 1) / num - 1) : Int)

/-- The point of the grid of multiples of `10 ^ grid` that lies in the rounding interval and is
nearest to the number; none if the interval meets no neighbour of the number on this grid. -/
def onGrid (b : Binary) (grid : Int) : Option Decimal :=
  let (unit, den) := b.quarterUnit
  let up := if grid < 0 then tenTo (-grid).toNat else 1
  let down := if grid < 0 then den else den * tenTo grid.toNat
  let value := 4 * b.mantissa * unit * up
  let low := (4 * b.mantissa - if b.narrowBelow then 1 else 2) * unit * up
  let high := (4 * b.mantissa + 2) * unit * up
  let closed := b.mantissa % 2 == 0
  let inside (c : Nat) : Bool :=
    let x := c * down
    if closed then low ≤ x && x ≤ high else low < x && x < high
  let below := value / down
  let above := below + 1
  match inside below, inside above with
  | true, true =>
    let left := value - below * down
    let right := above * down - value
    if left < right ∨ (left = right ∧ below % 2 = 0) then some ⟨below, grid⟩
    else some ⟨above, grid⟩
  | true, false => some ⟨below, grid⟩
  | false, true => some ⟨above, grid⟩
  | false, false => none

/-- The first hit among the grids with `count`, `count + 1`, … digits, at most `fuel` of them. -/
def search (b : Binary) (top : Int) : Nat → Nat → Option Decimal
  | 0, _ => none
  | fuel + 1, count =>
    match b.onGrid (top - count) with
    | some d => some d
    | none => search b top fuel (count + 1)

/-- **The shortest decimal** that lies in the rounding interval, without zeros at its end. For a
double, 17 digits always suffice. -/
def shortest (b : Binary) : Decimal :=
  if b.mantissa = 0 then ⟨0, 0⟩
  else
    let (unit, den) := b.quarterUnit
    match b.search (magnitude (4 * b.mantissa * unit) den) 17 1 with
    | some d => d.trimZeros 400
    | none => ⟨0, 0⟩

/-- The magnitude of a finite double, read off its 64 bits. -/
def ofFloat (x : Float) : Binary :=
  let bits := x.toBits.toNat
  let fraction := bits % twoTo 52
  let biased : Nat := bits / twoTo 52 % twoTo 11
  if biased = 0 then ⟨fraction, -1074, false⟩
  else ⟨fraction + twoTo 52, (biased : Int) - 1075, fraction == 0 && biased > 1⟩

end Binary

end PaneLayout
