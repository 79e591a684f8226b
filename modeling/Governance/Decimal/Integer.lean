/-!
# Whole numbers in decimal

Digits are read and written in base ten, most significant first. A whole number is read within the
bounds of its width: 64 bits with a sign (`readSigned64`) or without (`readUnsigned64`).
-/

set_option autoImplicit false

namespace Governance.Decimal

/-- The number that decimal digits write; other characters must not occur. -/
def ofDigits (ds : List Char) : Nat := ds.foldl (fun n d => n * 10 + (d.toNat - '0'.toNat)) 0

/-- The digits of a number, without leading zeros. -/
def digits (n : Nat) : List Char := Nat.toDigits 10 n

/-- A number in decimal. -/
def text (n : Nat) : String := String.ofList (digits n)

/-- A whole number in decimal, with a minus sign where it is negative. -/
def textInt (i : Int) : String :=
  if i < 0 then "-" ++ text i.natAbs else text i.natAbs

/-- The weight of the digit at a place, counted from the last one. -/
def weight (place : Nat) : Nat := Nat.pow 10 place

/-- The bounds of a signed whole number of 64 bits. -/
def inSigned64 (i : Int) : Bool := -0x8000000000000000 ≤ i && i < 0x8000000000000000

/-- The bounds of an unsigned whole number of 64 bits. -/
def inUnsigned64 (n : Nat) : Bool := n < 1 <<< 64

/-- The number that one or more digits write, and nothing else. -/
def readDigits (cs : List Char) : Option Nat :=
  if !cs.isEmpty && cs.all Char.isDigit then some (ofDigits cs) else none

/-- Reads an unsigned whole number of 64 bits; a plus sign may come first. -/
def readUnsigned64 (cs : List Char) : Option Nat :=
  let unsigned := match cs with
    | '+' :: rest => rest
    | _ => cs
  (readDigits unsigned).filter inUnsigned64

/-- Reads a signed whole number of 64 bits; a sign may come first. -/
def readSigned64 (cs : List Char) : Option Int :=
  let signed : Option Int := match cs with
    | '-' :: rest => (readDigits rest).map fun n => -(n : Int)
    | '+' :: rest => (readDigits rest).map Int.ofNat
    | _ => (readDigits cs).map Int.ofNat
  signed.filter inSigned64

end Governance.Decimal
