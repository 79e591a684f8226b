import Governance.Decimal.Binary64

/-!
# Shortest decimal text

The text of a 64-bit binary number has the fewest significant digits that read back as the number,
and of those with that many digits the nearest to it, an exact tie going to the even last digit.
Numbers of middling size are written with a point, the others with a power of ten.
-/

set_option autoImplicit false

namespace Governance.Binary64

/-- The power of ten at which the first digit of `num / den` stands, for quotients above
`10 ^ -400`. -/
def leadingPower (num den : Nat) : Int :=
  ((Decimal.digits (num * Decimal.weight 400 / den)).length : Int) - 401

/-- The decimals that read back as a number: those between `low` and `high`, both in quarters of the
last place, and the ends themselves where the significand is even. -/
structure Neighbourhood where
  low : Nat
  exact : Nat
  high : Nat
  closed : Bool

/-- The decimals that read back as the absolute value of a number. Below a power of two the numbers
lie twice as close. -/
def neighbourhood (x : Binary64) : Neighbourhood where
  low := 4 * x.significand - (if x.significand = 1 <<< 52 && minExponent < x.exponent then 1 else 2)
  exact := 4 * x.significand
  high := 4 * x.significand + 2
  closed := x.significand % 2 = 0

/-- Whether the quotient `num / den` lies in the neighbourhood. -/
def Neighbourhood.holds (b : Neighbourhood) (num den : Nat) : Bool :=
  if b.closed then b.low * den ≤ num && num ≤ b.high * den
  else b.low * den < num && num < b.high * den

/-- The multiple of `10 ^ power` that reads back as the number and is nearest to it, in units of
that power. -/
def onGrid (x : Binary64) (power : Int) : Option Nat :=
  let b := x.neighbourhood
  -- A multiple `n` of the grid is `n * num / den` quarters of the last place.
  let (num, den) : Nat × Nat :=
    let quarter := x.exponent - 2
    (Decimal.weight power.toNat <<< (-quarter).toNat,
      Decimal.weight (-power).toNat <<< quarter.toNat)
  let down := b.exact * den / num
  let up := down + 1
  match b.holds (down * num) den, b.holds (up * num) den with
  | false, false => none
  | true, false => some down
  | false, true => some up
  | true, true =>
    let below := b.exact * den - down * num
    let above := up * num - b.exact * den
    if below < above || (below == above && down % 2 == 0) then some down else some up

/-- Drops the zeros at the end of a number's digits, raising the power of ten for each. -/
def dropZeros : Nat → Nat → Int → Nat × Int
  | 0, digits, power => (digits, power)
  | fuel + 1, digits, power =>
    if digits ≠ 0 && digits % 10 = 0 then dropZeros fuel (digits / 10) (power + 1)
    else (digits, power)

/-- The shortest decimal `digits · 10 ^ power` for a number that is not zero. Seventeen digits are
always enough. -/
def shortest (x : Binary64) : Nat × Int :=
  let (num, den) := x.ratio
  let first := leadingPower num den
  let hit := (List.range 17).findSome? fun (more : Nat) =>
    let power : Int := first - more
    (x.onGrid power).map (·, power)
  match hit with
  | some (digits, power) => dropZeros 20 digits power
  | none => (0, 0)

/-- Where the decimal text of numbers changes its form: the point may stand at most
`pointAtMost` places after the first digit, and at most `zerosAtMost` zeros may follow the point. -/
structure TextForm where
  pointAtMost : Int
  zerosAtMost : Int

/-- Numbers below `10 ^ 16` and from `10 ^ -5` are written with a point. -/
def plainForm : TextForm := ⟨16, 4⟩

/-- The text of an exponent, which always has a sign. -/
def exponentText (e : Int) : List Char :=
  (if e < 0 then '-' else '+') :: Decimal.digits e.natAbs

/-- The text of `digits · 10 ^ power`, where `digits` is not zero and ends in no zero. -/
def decimalText (form : TextForm) (digits : Nat) (power : Int) : List Char :=
  let ds := Decimal.digits digits
  let point := (ds.length : Int) + power
  if 0 ≤ power && point ≤ form.pointAtMost then
    ds ++ List.replicate power.toNat '0' ++ ['.', '0']
  else if 0 < point && point ≤ form.pointAtMost then
    ds.take point.toNat ++ '.' :: ds.drop point.toNat
  else if -form.zerosAtMost ≤ point && point ≤ 0 then
    '0' :: '.' :: (List.replicate (-point).toNat '0' ++ ds)
  else
    let mantissa := match ds with
      | [] => []
      | [d] => [d]
      | d :: rest => d :: '.' :: rest
    mantissa ++ 'e' :: exponentText (point - 1)

/-- The shortest text of a number. A whole number keeps a zero after the point. -/
def text (x : Binary64) : String :=
  let body :=
    if x.isZero then ['0', '.', '0']
    else
      let (digits, power) := x.shortest
      decimalText plainForm digits power
  String.ofList (if x.negative then '-' :: body else body)

end Governance.Binary64
