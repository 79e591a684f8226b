import Governance.Decimal.Integer

/-!
# `Governance.Proofs.Decimal`: numbers are read back

`Decimal.digits` and `Decimal.textInt` write numbers, `Decimal.readUnsigned64` and
`Decimal.readSigned64` read them.

* `readUnsigned64_digits` and `readSigned64_textInt`: a number within its bounds is read back.
* `textInt_cases`: how the text of a whole number begins.
-/

set_option autoImplicit false

namespace Governance.Decimal

variable {n : Nat} {i : Int} {c : Char} {cs : List Char}

/-- A number has a digit. -/
theorem digits_ne_nil (n : Nat) : digits n ≠ [] := Nat.toDigits_ne_nil

/-- The digits of a number are digits of ASCII. -/
theorem isDigit_of_mem_digits (h : c ∈ digits n) : c.isDigit = true :=
  Nat.isDigit_of_mem_toDigits (by decide) (by decide) h

/-- Digits of a number write this number. -/
theorem ofDigits_digits (n : Nat) : ofDigits (digits n) = n := by
  have hfold : ofDigits (digits n) = Nat.ofDigitChars 10 (digits n) 0 := by
    simp only [ofDigits, Nat.ofDigitChars, Nat.mul_comm]
  rw [hfold, digits, Nat.ofDigitChars_ten_toDigits]

/-- Digits of a number are read as this number. -/
theorem readDigits_digits (n : Nat) : readDigits (digits n) = some n := by
  have hall : (digits n).all Char.isDigit = true :=
    List.all_eq_true.mpr fun _ hc => isDigit_of_mem_digits hc
  simp [readDigits, digits_ne_nil, hall, ofDigits_digits]

/-- No number in decimal begins with a sign. -/
theorem digits_ne_cons (h : c.isDigit = false) (n : Nat) (rest : List Char) :
    digits n ≠ c :: rest := by
  intro heq
  have hc := isDigit_of_mem_digits (n := n) (heq ▸ List.mem_cons_self)
  simp [h] at hc

/-- A number of 64 bits is read back, and no other one is. -/
theorem readUnsigned64_digits (n : Nat) :
    readUnsigned64 (digits n) = (some n).filter inUnsigned64 := by
  unfold readUnsigned64
  split
  next rest heq => exact absurd heq (digits_ne_cons (by decide) n rest)
  next => simp only [readDigits_digits]

/-- The text of a whole number is that of its digits, with a minus in front if it is negative. -/
theorem textInt_cases (i : Int) :
    (textInt i).toList = '-' :: digits i.natAbs ∧ i < 0 ∨
      (textInt i).toList = digits i.natAbs ∧ 0 ≤ i := by
  unfold textInt text
  split
  next h => exact Or.inl ⟨by simp, h⟩
  next h => exact Or.inr ⟨by simp, Int.not_lt.mp h⟩

/-- A whole number of 64 bits is read back. -/
theorem readSigned64_textInt (h : inSigned64 i = true) :
    readSigned64 (textInt i).toList = some i := by
  rcases textInt_cases i with ⟨htext, hneg⟩ | ⟨htext, hnonneg⟩
  · -- A negative number has the sign in front of the digits of its absolute value.
    have habs : -(i.natAbs : Int) = i := by omega
    have hread : readSigned64 ('-' :: digits i.natAbs) =
        (some (-(i.natAbs : Int))).filter inSigned64 := by
      simp only [readSigned64, readDigits_digits]
      rfl
    rw [htext, hread, habs, Option.filter_some, if_pos h]
  · -- Without a sign the digits are read as they are, since none of them is a sign.
    have habs : (i.natAbs : Int) = i := by omega
    have hread : readSigned64 (digits i.natAbs) = (some (i.natAbs : Int)).filter inSigned64 := by
      unfold readSigned64
      split
      next rest heq => exact absurd heq (digits_ne_cons (by decide) _ rest)
      next rest heq => exact absurd heq (digits_ne_cons (by decide) _ rest)
      next => simp only [readDigits_digits, Option.map_some, Int.ofNat_eq_natCast]
    rw [htext, hread, habs, Option.filter_some, if_pos h]

end Governance.Decimal
