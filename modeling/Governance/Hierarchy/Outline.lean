import Governance.Decimal.Integer
import Governance.Hierarchy.Growth

/-!
# Outlines of hierarchies

An outline lists the groups of a hierarchy, each before those below it, with how deep it stands.
-/

set_option autoImplicit false

namespace Governance

/-- A group in an outline, and how deep it stands. -/
structure OutlineEntry where
  depth : Nat
  group : Group

namespace Registry

/-- The outline from a group down, at most `levels` levels of it. -/
def outlineFrom (r : Registry) : Nat → Nat → String → List OutlineEntry
  | 0, _, _ => []
  | levels + 1, depth, id =>
    match r.get? id with
    | none => []
    | some g =>
      ⟨depth, g⟩ :: g.children.toList.flatMap fun child => outlineFrom r levels (depth + 1) child

/-- The outline of a registry from its roots down. No group stands deeper than there are groups. -/
def outline (r : Registry) : List OutlineEntry :=
  (r.atLevel 0).flatMap fun id => outlineFrom r r.size 1 id

end Registry

/-- The line of a group in an outline. -/
def OutlineEntry.text (e : OutlineEntry) : String :=
  String.ofList (List.replicate (2 * e.depth) ' ') ++ e.group.id ++ ": " ++
    Decimal.text e.group.policyDefinitions.size ++ " definitions, " ++
    Decimal.text e.group.policySetDefinitions.size ++ " sets, " ++
    Decimal.text e.group.policyAssignments.size ++ " assignments, " ++
    Decimal.text e.group.roleDefinitions.size ++ " roles"

end Governance
