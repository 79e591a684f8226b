import Governance.Json.Record

/-!
# Role grants

A role grant says that the identity of an assignment needs a role at a scope. Grants are ordered by
their fields, so a report lists them by assignment first.

* The instances make sets of grants possible: the order is total and tells different grants apart.
-/

set_option autoImplicit false

namespace Governance

open Json

/-- A role that the identity of an assignment needs at a scope. -/
structure RoleGrant where
  assignment : String
  roleDefinitionId : String
  scope : String
  group : String
  deriving DecidableEq

namespace RoleGrant

/-- The order of grants: the first field that differs decides. -/
instance : Ord RoleGrant where
  compare := compareLex (compareOn assignment) (compareLex (compareOn roleDefinitionId)
    (compareLex (compareOn scope) (compareOn group)))

instance : Std.TransOrd RoleGrant :=
  inferInstanceAs (Std.TransCmp (compareLex (compareOn assignment)
    (compareLex (compareOn roleDefinitionId) (compareLex (compareOn scope) (compareOn group)))))

instance : Std.LawfulEqOrd RoleGrant where
  compare_self := Std.ReflCmp.compare_self
  eq_of_compare {a b} h := by
    obtain ⟨a₁, a₂, a₃, a₄⟩ := a
    obtain ⟨b₁, b₂, b₃, b₄⟩ := b
    change (compare a₁ b₁).then ((compare a₂ b₂).then
      ((compare a₃ b₃).then (compare a₄ b₄))) = .eq at h
    simp only [Ordering.then_eq_eq] at h
    obtain ⟨h₁, h₂, h₃, h₄⟩ := h
    rw [Std.LawfulEqCmp.eq_of_compare h₁, Std.LawfulEqCmp.eq_of_compare h₂,
      Std.LawfulEqCmp.eq_of_compare h₃, Std.LawfulEqCmp.eq_of_compare h₄]

variable {δ : Type} [Source δ]

/-- The names of the fields. -/
def fieldNames : List String :=
  ["assignment_name", "role_definition_id", "scope", "management_group_id"]

/-- Reads a grant. -/
def decode (d : δ) : Option RoleGrant := do
  let fs ← readFields fieldNames d
  return {
    assignment := ← fs.required "assignment_name" readText
    roleDefinitionId := ← fs.required "role_definition_id" readText
    scope := ← fs.required "scope" readText
    group := ← fs.required "management_group_id" readText }

/-- Writes a grant. -/
def encode (g : RoleGrant) : Json := record [
  ("assignment_name", some (.string g.assignment)),
  ("role_definition_id", some (.string g.roleDefinitionId)),
  ("scope", some (.string g.scope)),
  ("management_group_id", some (.string g.group))]

end RoleGrant

end Governance
