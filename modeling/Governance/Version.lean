import Governance.Decimal.Integer
import Governance.Text.Search

/-!
# Versions

A version is a text of parts between points. Two parts that are both whole numbers of 64 bits
compare as numbers, any other two as texts; a version that another one continues comes first, and an
asset without a version comes before every asset with one.

* `Version.compare_self`: a version is equal to itself.
-/

set_option autoImplicit false

namespace Governance.Version

/-- The order of two parts. -/
def comparePart (a b : String) : Ordering :=
  match Decimal.readUnsigned64 a.toList, Decimal.readUnsigned64 b.toList with
  | some m, some n => Ord.compare m n
  | _, _ => Ord.compare a b

/-- The order of two lists of parts: that of the first two parts that differ. -/
def compareParts : List String → List String → Ordering
  | [], [] => .eq
  | [], _ :: _ => .lt
  | _ :: _, [] => .gt
  | a :: as, b :: bs => (comparePart a b).then (compareParts as bs)

/-- The order of two versions, either of which may be missing. -/
def compare : Option String → Option String → Ordering
  | none, none => .eq
  | none, some _ => .lt
  | some _, none => .gt
  | some a, some b => compareParts (Text.splitAtChar '.' a) (Text.splitAtChar '.' b)

/-- A part is as high as itself. -/
theorem comparePart_self (a : String) : comparePart a a = .eq := by
  unfold comparePart
  split <;> simp_all

/-- Parts are as high as themselves. -/
theorem compareParts_self (as : List String) : compareParts as as = .eq := by
  induction as with
  | nil => rfl
  | cons a as ih => simp [compareParts, comparePart_self, ih, Ordering.then]

/-- A version is as high as itself, and so is none. -/
theorem compare_self (v : Option String) : compare v v = .eq := by
  cases v with
  | none => rfl
  | some a => exact compareParts_self _

end Governance.Version
