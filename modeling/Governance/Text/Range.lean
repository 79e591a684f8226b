/-!
# Ranges of code points

A property of characters is written as the ascending list of the closed ranges of code points that
have it.
-/

set_option autoImplicit false

namespace Governance.Text

/-- Whether one of the closed ranges holds the character's code point. -/
def inRanges (ranges : List (Nat × Nat)) (c : Char) : Bool :=
  ranges.any fun r => r.1 ≤ c.toNat && c.toNat ≤ r.2

/-- No code point is in a range of both tables. -/
def apart (rs qs : List (Nat × Nat)) : Bool :=
  rs.all fun r => qs.all fun q => r.2 < q.1 || q.2 < r.1

/-- A character in ranges is in none that lie apart from them. -/
theorem inRanges_of_apart {rs qs : List (Nat × Nat)} {c : Char} (h : apart rs qs = true)
    (hc : inRanges rs c = true) : inRanges qs c = false := by
  obtain ⟨r, hr, hcr⟩ := List.any_eq_true.mp hc
  rw [inRanges, List.any_eq_false]
  intro q hq hcq
  have happart := List.all_eq_true.mp (List.all_eq_true.mp h r hr) q hq
  simp only [Bool.and_eq_true, Bool.or_eq_true, decide_eq_true_eq] at hcr hcq happart
  omega

/-- A character within the bounds of one range is in the ranges. -/
theorem inRanges_of_mem {rs : List (Nat × Nat)} {r : Nat × Nat} {c : Char} (hr : r ∈ rs)
    (hlow : r.1 ≤ c.toNat) (hhigh : c.toNat ≤ r.2) : inRanges rs c = true :=
  List.any_eq_true.mpr ⟨r, hr, by simp [hlow, hhigh]⟩

/-- The digits of ASCII have a range of their own. -/
theorem inRanges_of_isDigit {rs : List (Nat × Nat)} {c : Char} (hrs : (0x30, 0x39) ∈ rs)
    (h : c.isDigit = true) : inRanges rs c = true := by
  simp only [Char.isDigit, Bool.and_eq_true, decide_eq_true_eq, UInt32.le_iff_toNat_le] at h
  exact inRanges_of_mem hrs h.1 h.2

end Governance.Text
