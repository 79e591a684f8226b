import Governance.Hierarchy.Growth

/-!
# Views of hierarchies

A view shows groups as JSON does: children and grants as lists, and one parent, which for the root
is the place outside of the hierarchy. A view can be read back.
-/

set_option autoImplicit false

namespace Governance

open Json

/-- A group as JSON shows it. -/
structure GroupView where
  children : List String
  displayName : String
  existing : Bool
  id : String
  level : Nat
  location : String
  parent : Option String
  policyAssignments : OrderedMap String PolicyAssignment
  policyDefinitions : OrderedMap String PolicyDefinition
  grants : List RoleGrant
  policySetDefinitions : OrderedMap String PolicySetDefinition
  roleDefinitions : OrderedMap String RoleDefinition

/-- A hierarchy as JSON shows it. -/
structure HierarchyView where
  groups : OrderedMap String GroupView

namespace GroupView

variable {δ : Type} [Source δ]

/-- The names of the fields. -/
def fieldNames : List String :=
  ["children", "display_name", "exists", "id", "level", "location", "parent",
   "policy_assignments", "policy_definitions", "policy_role_assignments",
   "policy_set_definitions", "role_definitions"]

/-- Reads the view of a group. -/
def decode (d : δ) : Option GroupView := do
  let fs ← readFields fieldNames d
  return {
    children := ← fs.required "children" (readList readText)
    displayName := ← fs.required "display_name" readText
    existing := ← fs.required "exists" readBool
    id := ← fs.required "id" readText
    level := ← fs.required "level" readUnsigned32
    location := ← fs.required "location" readText
    parent := ← fs.optional "parent" readText
    policyAssignments := ← fs.required "policy_assignments" (readMap PolicyAssignment.decode)
    policyDefinitions := ← fs.required "policy_definitions" (readMap PolicyDefinition.decode)
    grants := ← fs.required "policy_role_assignments" (readList RoleGrant.decode)
    policySetDefinitions :=
      ← fs.required "policy_set_definitions" (readMap PolicySetDefinition.decode)
    roleDefinitions := ← fs.required "role_definitions" (readMap RoleDefinition.decode) }

/-- Writes the view of a group. -/
def encode (v : GroupView) : Json := record [
  ("children", some (ofTexts v.children)),
  ("display_name", some (.string v.displayName)),
  ("exists", some (.bool v.existing)),
  ("id", some (.string v.id)),
  ("level", some (.ofNat v.level)),
  ("location", some (.string v.location)),
  ("parent", some (ofText? v.parent)),
  ("policy_assignments", some (ofMap PolicyAssignment.encode v.policyAssignments)),
  ("policy_definitions", some (ofMap PolicyDefinition.encode v.policyDefinitions)),
  ("policy_role_assignments", some (Json.ofList RoleGrant.encode v.grants)),
  ("policy_set_definitions", some (ofMap PolicySetDefinition.encode v.policySetDefinitions)),
  ("role_definitions", some (ofMap RoleDefinition.encode v.roleDefinitions))]

end GroupView

/-- The view of a group. -/
def Group.view (g : Group) : GroupView where
  children := g.children.toList
  displayName := g.displayName
  existing := g.existing
  id := g.id
  level := g.level
  location := g.location
  parent := some g.parent.id
  policyAssignments := g.policyAssignments
  policyDefinitions := g.policyDefinitions
  grants := g.grants.toList
  policySetDefinitions := g.policySetDefinitions
  roleDefinitions := g.roleDefinitions

namespace HierarchyView

variable {δ : Type} [Source δ]

/-- Reads the view of a hierarchy. -/
def decode (d : δ) : Option HierarchyView := do
  let fs ← readFields ["management_groups"] d
  return { groups := ← fs.required "management_groups" (readMap GroupView.decode) }

/-- Writes the view of a hierarchy. -/
def encode (v : HierarchyView) : Json :=
  record [("management_groups", some (ofMap GroupView.encode v.groups))]

end HierarchyView

/-- The view of a hierarchy. -/
def Hierarchy.view (h : Hierarchy) : HierarchyView := ⟨h.groups.map fun _ g => g.view⟩

end Governance
