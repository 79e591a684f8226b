import Governance.Decimal.Integer

/-!
# Binary floating point of 64 bits

A finite number of the 64-bit binary format, kept as sign, significand and exponent. Arithmetic is
exact on natural numbers and rounds once, to the nearest number of the format with ties to the even
significand; there are no infinities, an overflow is `none`.
-/

set_option autoImplicit false

namespace Governance

/-- The number `± significand · 2 ^ exponent`. -/
structure Binary64 where
  negative : Bool
  significand : Nat
  exponent : Int
  deriving DecidableEq, Repr

namespace Binary64

/-- The least exponent of the format. -/
def minExponent : Int := -1074

/-- The greatest exponent of the format. -/
def maxExponent : Int := 971

/-- Zero of either sign. -/
def zero (negative : Bool) : Binary64 := ⟨negative, 0, minExponent⟩

/-- Whether the number is zero, of either sign. -/
def isZero (x : Binary64) : Bool := x.significand == 0

/-- The number with the other sign. -/
def neg (x : Binary64) : Binary64 := { x with negative := !x.negative }

/-- Numeric equality, in which the two zeros are equal. -/
def equal (x y : Binary64) : Bool := x == y || (x.isZero && y.isZero)

/-- The quotient rounded to the nearest whole number, a tie to the even one. -/
def roundHalfEven (num den : Nat) : Nat :=
  let q := num / den
  let r := num % den
  if 2 * r < den then q
  else if den < 2 * r then q + 1
  else if q % 2 = 0 then q else q + 1

/-- `num / den` divided by `2 ^ e`, as a quotient of natural numbers. -/
def unscale (num den : Nat) (e : Int) : Nat × Nat :=
  if e < 0 then (num <<< e.natAbs, den) else (num, den <<< e.natAbs)

/-- The exponent at which the quotient has 53 bits before the point, or the least exponent. -/
def exponentFor (num den : Nat) : Int :=
  let guess : Int := (Nat.log2 num : Int) - Nat.log2 den - 52
  let (n, d) := unscale num den guess
  max minExponent (if n / d < 1 <<< 52 then guess - 1 else guess)

/-- The number of the format nearest to `± num / den`; `none` where that is too large. -/
def ofRatio (negative : Bool) (num den : Nat) : Option Binary64 :=
  if num = 0 then some (zero negative)
  else
    let e := exponentFor num den
    let (n, d) := unscale num den e
    let q := roundHalfEven n d
    let x : Binary64 := if q = 1 <<< 53 then ⟨negative, 1 <<< 52, e + 1⟩ else ⟨negative, q, e⟩
    if x.exponent ≤ maxExponent then some x else none

/-- The absolute value as a quotient of natural numbers. -/
def ratio (x : Binary64) : Nat × Nat :=
  if x.exponent < 0 then (x.significand, 1 <<< x.exponent.natAbs)
  else (x.significand <<< x.exponent.natAbs, 1)

/-- The number nearest to a natural number. -/
def ofNat? (n : Nat) : Option Binary64 := ofRatio false n 1

/-- The product, rounded. -/
def mul (x y : Binary64) : Option Binary64 :=
  let (n, d) := x.ratio
  let (n', d') := y.ratio
  ofRatio (x.negative != y.negative) (n * n') (d * d')

/-- The quotient by a number that is not zero, rounded. -/
def div (x y : Binary64) : Option Binary64 :=
  let (n, d) := x.ratio
  let (n', d') := y.ratio
  ofRatio (x.negative != y.negative) (n * d') (d * n')

/-- The number nearest to `± digits · 10 ^ power`. -/
def ofDecimal (negative : Bool) (digits : Nat) (power : Int) : Option Binary64 :=
  if power < 0 then ofRatio negative digits (Decimal.weight power.natAbs)
  else ofRatio negative (digits * Decimal.weight power.natAbs) 1

end Binary64

end Governance
