/-!
# ASCII case

Names of resource types and functions are compared without regard to the case of ASCII letters; all
other characters count as they are.
-/

set_option autoImplicit false

namespace Governance.Text

/-- The text with its ASCII capitals made small. -/
def asciiLower (s : String) : String := String.ofList (s.toList.map Char.toLower)

/-- Whether two texts differ at most in the case of ASCII letters. -/
def equalIgnoringCase (a b : String) : Bool := asciiLower a == asciiLower b

/-- Texts agree up to case exactly if they agree in lower case. -/
theorem equalIgnoringCase_iff {a b : String} :
    equalIgnoringCase a b = true ↔ asciiLower a = asciiLower b := by
  simp [equalIgnoringCase]

/-- Every text agrees with itself. -/
theorem equalIgnoringCase_refl (a : String) : equalIgnoringCase a a = true := by
  simp [equalIgnoringCase]

end Governance.Text
