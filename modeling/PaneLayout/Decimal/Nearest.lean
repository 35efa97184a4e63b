import PaneLayout.Decimal.Shortest

set_option autoImplicit false

/-!
# Nearest doubles

A decimal is read as the double nearest to it; of two doubles equally near, the one with the even
mantissa counts. The bits of a positive double are its mantissa, where the mantissa is small enough
for the least exponent; with every further exponent they go up by `2 ^ 52`. A mantissa rounded up to
`2 ^ 53` so needs no special case.

## Main definitions

* `PaneLayout.Decimal.roundDiv`: a quotient rounded to the nearest whole number.
* `PaneLayout.Decimal.nearestBits`: the bits of the double nearest to a positive fraction.
* `PaneLayout.Decimal.toFloat?`: the double nearest to a decimal.
-/

namespace PaneLayout

namespace Decimal

/-- A quotient rounded to the nearest whole number, or to the even one of two. -/
def roundDiv (num den : Nat) : Nat :=
  let q := num / den
  let twice := 2 * (num % den)
  if twice < den ∨ (twice = den ∧ q % 2 = 0) then q else q + 1

/-- The exponent of the unit in which a positive fraction has 53 binary digits before the point, or
the least exponent of a double if that is larger. -/
def unitExponent (num den : Nat) : Int :=
  let e : Int := (num.log2 : Int) - den.log2
  let full :=
    if 0 ≤ e then decide (den * twoTo e.toNat ≤ num) else decide (den ≤ num * twoTo (-e).toNat)
  max (-1074) (if full then e - 52 else e - 53)

/-- **The bits of the double nearest to a positive fraction.** A result of `2047 · 2 ^ 52` or more
stands for infinity. -/
def nearestBits (num den : Nat) : Nat :=
  let e := unitExponent num den
  let mantissa := if 0 ≤ e then roundDiv num (den * twoTo e.toNat)
    else roundDiv (num * twoTo (-e).toNat) den
  (e + 1074).toNat * twoTo 52 + mantissa

/-- **The double nearest to a decimal;** none if that is infinite. -/
def toFloat? (d : Decimal) : Option Float :=
  if d.digits = 0 then some 0.0
  else
    let top := (width d.digits : Int) + d.exponent
    if top < -330 then some 0.0
    else if 310 < top then none
    else
      let bits :=
        if 0 ≤ d.exponent then nearestBits (d.digits * tenTo d.exponent.toNat) 1
        else nearestBits d.digits (tenTo (-d.exponent).toNat)
      if bits < 2047 * twoTo 52 then some (Float.ofBits bits.toUInt64) else none

end Decimal

end PaneLayout
