import Governance.Decimal.Integer
import Governance.Text.Reading

/-!
# Dates and times of TOML

A date, a time of day, or both; both may come with an offset. They are written in one normal form: a
`T` between date and time, no zeros at the end of a fraction, and `Z` or a signed offset.
-/

set_option autoImplicit false

namespace Governance.Toml

/-- A day of the calendar. -/
structure Date where
  year : Nat
  month : Nat
  day : Nat
  deriving DecidableEq

/-- A time of day. -/
structure Clock where
  hour : Nat
  minute : Nat
  second : Nat
  nanosecond : Nat
  deriving DecidableEq

/-- The distance from universal time. -/
inductive Offset where
  | universal
  | minutes (m : Int)
  deriving DecidableEq

/-- A date, a time of day, or both. -/
structure DateTime where
  date : Option Date
  clock : Option Clock
  offset : Option Offset
  deriving DecidableEq

/-! ### Writing -/

/-- A number with at least `width` digits. -/
def padded (width n : Nat) : String :=
  let ds := Decimal.digits n
  String.ofList (List.replicate (width - ds.length) '0' ++ ds)

/-- The text of a date. -/
def Date.text (d : Date) : String :=
  padded 4 d.year ++ "-" ++ padded 2 d.month ++ "-" ++ padded 2 d.day

/-- The text of a fraction of a second, without zeros at its end. -/
def fractionText (nanosecond : Nat) : String :=
  if nanosecond = 0 then ""
  else "." ++ String.ofList ((padded 9 nanosecond).toList.reverse.dropWhile (· == '0')).reverse

/-- The text of a time of day. -/
def Clock.text (c : Clock) : String :=
  padded 2 c.hour ++ ":" ++ padded 2 c.minute ++ ":" ++ padded 2 c.second ++
    fractionText c.nanosecond

/-- The text of an offset. -/
def Offset.text : Offset → String
  | .universal => "Z"
  | .minutes m =>
    (if m < 0 then "-" else "+") ++ padded 2 (m.natAbs / 60) ++ ":" ++ padded 2 (m.natAbs % 60)

/-- The text of a date and time. -/
def DateTime.text (t : DateTime) : String :=
  let clock := match t.date, t.clock with
    | _, none => ""
    | none, some c => c.text
    | some _, some c => "T" ++ c.text
  t.date.elim "" Date.text ++ clock ++ t.offset.elim "" Offset.text

/-! ### Reading -/

/-- Whether a year has a 29th of February. -/
def isLeapYear (year : Nat) : Bool := year % 4 == 0 && (year % 100 != 0 || year % 400 == 0)

/-- The number of days in a month. -/
def daysIn (year month : Nat) : Nat :=
  if month = 2 then if isLeapYear year then 29 else 28
  else if month = 4 ∨ month = 6 ∨ month = 9 ∨ month = 11 then 30
  else 31

/-- A number with a fixed count of digits, within bounds. -/
def fixedNumber (width low high : Nat) : Reading Nat := do
  let n := Decimal.ofDigits (← Reading.exactly Char.isDigit width)
  if low ≤ n ∧ n ≤ high then return n else failure

/-- Reads a date. -/
def readDate : Reading Date := do
  let year ← fixedNumber 4 0 9999
  Reading.char '-'
  let month ← fixedNumber 2 1 12
  Reading.char '-'
  let day ← fixedNumber 2 1 (daysIn year month)
  return ⟨year, month, day⟩

/-- Reads a fraction of a second; digits beyond the ninth are dropped. -/
def readFraction : Reading Nat := do
  Reading.char '.'
  let ds ← Reading.takeWhile Char.isDigit
  if ds.isEmpty then failure
  return Decimal.ofDigits (ds.take 9) * Decimal.weight (9 - ds.length)

/-- Reads a time of day. -/
def readClock : Reading Clock := do
  let hour ← fixedNumber 2 0 23
  Reading.char ':'
  let minute ← fixedNumber 2 0 59
  Reading.char ':'
  let second ← fixedNumber 2 0 60
  return ⟨hour, minute, second, (← Reading.optional readFraction).getD 0⟩

/-- Reads an offset. -/
def readOffset : Reading Offset :=
  (do
    let _ ← Reading.satisfy fun c => c == 'Z' || c == 'z'
    return .universal) <|>
  (do
    let sign ← Reading.satisfy fun c => c == '+' || c == '-'
    let hour ← fixedNumber 2 0 23
    Reading.char ':'
    let minute ← fixedNumber 2 0 59
    let m : Int := hour * 60 + minute
    return .minutes (if sign == '-' then -m else m))

/-- Reads a date, a time of day, or both with a `T` or a blank between them. -/
def readDateTime : Reading DateTime :=
  (do
    let date ← readDate
    let clock ← Reading.optional do
      let _ ← Reading.satisfy fun c => c == 'T' || c == 't' || c == ' '
      let clock ← readClock
      return (clock, ← Reading.optional readOffset)
    return ⟨some date, clock.map Prod.fst, clock.bind Prod.snd⟩) <|>
  (do
    return ⟨none, some (← readClock), none⟩)

end Governance.Toml
