import Governance.Decimal.Shortest
import Governance.Decimal.Integer
import Governance.Order.Map

/-!
# JSON values

A JSON value as assets carry it. Whole numbers that fit 64 bits are kept apart from the other
numbers: the two kinds are never equal. The members of an object stand in the order in which they
are written; in a value that was read from text this is the order of their names.

* `Json.same` is the equality that expressions see, in which the two float zeros agree.
* `Json.ofMap` writes a map as an object.
-/

set_option autoImplicit false

namespace Governance

/-- A number: whole and within 64 bits, or a binary fraction. -/
inductive Number where
  | integer (i : Int)
  | float (x : Binary64)
  deriving DecidableEq

/-- The whole number in the bounds of 64 bits with a sign. -/
def Number.toSigned? : Number → Option Int
  | .integer i => if Decimal.inSigned64 i then some i else none
  | .float _ => none

/-- The whole number in the bounds of 64 bits without a sign. -/
def Number.toUnsigned? : Number → Option Nat
  | .integer i => if 0 ≤ i then some i.toNat else none
  | .float _ => none

/-- Equality of numbers: of the same kind and the same value. -/
def Number.same : Number → Number → Bool
  | .integer i, .integer j => i == j
  | .float x, .float y => x.equal y
  | _, _ => false

/-- The text of a number. -/
def Number.text : Number → String
  | .integer i => Decimal.textInt i
  | .float x => x.text

/-- A JSON value. -/
inductive Json where
  | null
  | bool (b : Bool)
  | number (n : Number)
  | string (s : String)
  | array (items : List Json)
  | object (members : List (String × Json))

instance : Inhabited Json := ⟨.null⟩

namespace Json

/-- A whole number as a value. -/
def ofNat (n : Nat) : Json := .number (.integer n)

/-- A list of texts as a value. -/
def ofTexts (texts : List String) : Json := .array (texts.map .string)

/-- A text that may be missing; null where it is. -/
def ofText? (s : Option String) : Json := s.elim .null .string

/-- A map as an object, its values written by `f`. -/
def ofMap {α : Type} (f : α → Json) (m : OrderedMap String α) : Json :=
  .object (m.entries.map fun e => (e.1, f e.2))

/-- Whether the value is null. -/
def isNull : Json → Bool
  | .null => true
  | _ => false

/-- The items of an array. -/
def items? : Json → Option (List Json)
  | .array items => some items
  | _ => none

/-- The members of an object. -/
def members? : Json → Option (List (String × Json))
  | .object members => some members
  | _ => none

/-- The text of a string. -/
def text? : Json → Option String
  | .string s => some s
  | _ => none

/-- The truth value of a boolean. -/
def bool? : Json → Option Bool
  | .bool b => some b
  | _ => none

/-- The member of an object with the given name. -/
def member? (name : String) : Json → Option Json
  | .object members => members.lookup name
  | _ => none

/-- The value at the end of a path of member names. -/
def atPath? : List String → Json → Option Json
  | [], v => some v
  | name :: path, v => (v.member? name).bind (atPath? path)

mutual

/-- Equality as expressions see it: numbers by kind and value, all else by structure. -/
def same : Json → Json → Bool
  | .null, .null => true
  | .bool a, .bool b => a == b
  | .number a, .number b => a.same b
  | .string a, .string b => a == b
  | .array a, .array b => sameItems a b
  | .object a, .object b => sameMembers a b
  | _, _ => false

/-- Equality of lists of values. -/
def sameItems : List Json → List Json → Bool
  | [], [] => true
  | a :: as, b :: bs => same a b && sameItems as bs
  | _, _ => false

/-- Equality of lists of members. -/
def sameMembers : List (String × Json) → List (String × Json) → Bool
  | [], [] => true
  | (n, a) :: as, (m, b) :: bs => n == m && same a b && sameMembers as bs
  | _, _ => false

end

end Json

end Governance
