import Governance.Decimal.Binary64
import Governance.Decimal.Integer
import Governance.Text.Reading

/-!
# Numbers of TOML

Single underscores may stand between digits. A whole number has 64 bits with a sign and may be
written in base 2, 8 or 16; a number with a fraction or an exponent is rounded to the nearest binary
number. One that is too large may only be negative, and then stands for infinity.
-/

set_option autoImplicit false

namespace Governance.Toml

/-- More digits, with an underscore before some of them. -/
def moreDigits (isDigit : Char → Bool) : Reading (List Char) :=
  Reading.many do
    let _ ← Reading.optional (Reading.char '_')
    Reading.satisfy isDigit

/-- One or more digits with underscores between them. -/
def digitGroup (isDigit : Char → Bool) : Reading (List Char) := do
  let first ← Reading.satisfy isDigit
  return first :: (← moreDigits isDigit)

/-- The digits of a whole number, which begin with a zero only if that is all. -/
def wholeDigits : Reading (List Char) := do
  let first ← Reading.satisfy Char.isDigit
  if first == '0' then return [first]
  return first :: (← moreDigits Char.isDigit)

/-- A sign that may be missing: whether it is a minus sign. -/
def readSign : Reading Bool := do
  let sign ← Reading.optional (Reading.satisfy fun c => c == '+' || c == '-')
  return sign == some '-'

/-! ### Whole numbers -/

/-- The value of a character as a digit; 16 for one that is no digit in base 16. -/
def digitValue (c : Char) : Nat :=
  if c.isDigit then c.toNat - '0'.toNat
  else if 'a' ≤ c ∧ c ≤ 'f' then c.toNat - 'a'.toNat + 10
  else if 'A' ≤ c ∧ c ≤ 'F' then c.toNat - 'A'.toNat + 10
  else 16

/-- The value of a character as a digit of a base up to 16. -/
def radixDigit? (base : Nat) (c : Char) : Option Nat :=
  if digitValue c < base then some (digitValue c) else none

/-- A whole number in a base, after the mark of the base. -/
def readRadix (mark : String) (base : Nat) : Reading Int := do
  Reading.text mark
  let ds ← digitGroup fun c => (radixDigit? base c).isSome
  let n := ds.foldl (fun n c => n * base + (radixDigit? base c).getD 0) 0
  if Decimal.inSigned64 n then return n else failure

/-- Reads a whole number. -/
def readInteger : Reading Int :=
  readRadix "0x" 16 <|> readRadix "0o" 8 <|> readRadix "0b" 2 <|> do
    let negative ← readSign
    let n : Int := Decimal.ofDigits (← wholeDigits)
    let i := if negative then -n else n
    if Decimal.inSigned64 i then return i else failure

/-! ### Binary fractions -/

/-- A binary number; `none` where it is infinite or no number. -/
abbrev Fraction := Option Binary64

/-- The number nearest to `± n · 10 ^ power`; `none` where that is too large. -/
def nearest (negative : Bool) (n : Nat) (power : Int) : Option Binary64 :=
  let point : Int := (Decimal.digits n).length + power
  if n = 0 ∨ point < -400 then some (Binary64.zero negative)
  else if 400 < point then none
  else Binary64.ofDecimal negative n power

/-- Reads the digits after the point. -/
def readPlaces : Reading (List Char) := do
  Reading.char '.'
  digitGroup Char.isDigit

/-- Reads an exponent. -/
def readExponent : Reading Int := do
  let _ ← Reading.satisfy fun c => c == 'e' || c == 'E'
  let negative ← readSign
  let e : Int := Decimal.ofDigits (← digitGroup Char.isDigit)
  return if negative then -e else e

/-- Reads a number with a fraction or an exponent. -/
def readFinite : Reading Fraction := do
  let negative ← readSign
  let whole ← wholeDigits
  let places ← Reading.optional readPlaces
  let exponent ← Reading.optional readExponent
  if places.isNone && exponent.isNone then failure
  let ds := places.getD []
  let x := nearest negative (Decimal.ofDigits (whole ++ ds)) (exponent.getD 0 - ds.length)
  if x.isNone && !negative then failure
  return x

/-- Reads a number with a fraction or an exponent, or a name for one that is not finite. -/
def readFraction? : Reading Fraction :=
  readFinite <|> do
    let _ ← readSign
    Reading.text "inf" <|> Reading.text "nan"
    return none

end Governance.Toml
