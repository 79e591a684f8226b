import Governance.Digest.NameUuid
import Governance.Hierarchy.Error
import Governance.Hierarchy.Group

/-!
# Deploying the assets of a group

The copies that a group holds are given identifiers of that group, and references between assets are
pointed at the group that deploys what they refer to: the group itself, or else its nearest ancestor
that does. What no group deploys is built in, and references to it stay. What only groups elsewhere
deploy cannot be referred to.

Deploying stops at the first reference that reaches no definition; what was changed by then stays.

* `nearestOwner_eq_some`: the nearest owner is one.
-/

set_option autoImplicit false

namespace Governance

/-- What a group has to know of the others to deploy its assets. -/
structure DeploymentContext where
  /-- The ids above the group, the nearest first. -/
  ancestors : List String
  definitionOwners : OwnerIndex
  setDefinitionOwners : OwnerIndex
  /-- Whether the copies of role definitions get names of their own. -/
  uniqueRoles : Bool

/-- The name of the copy of a role definition at a group, where each copy has a name of its own. -/
def uniqueRoleName (group asset : String) : String := Digest.nameUuid (group ++ asset)

namespace Deployment

/-- The owner that a reference from a group should use: the group itself, or else its nearest
ancestor that is one. -/
def nearestOwner (group : String) (ancestors : List String) (owners : OrderedSet String) :
    Option String :=
  if owners.contains group then some group else ancestors.find? owners.contains

/-- The nearest owner is an owner. -/
theorem nearestOwner_eq_some {group : String} {ancestors : List String} {owners : OrderedSet String}
    {owner : String} (h : nearestOwner group ancestors owners = some owner) :
    owners.contains owner = true ∧ (owner = group ∨ owner ∈ ancestors) := by
  unfold nearestOwner at h
  split at h
  next hg =>
    cases h
    exact ⟨hg, Or.inl rfl⟩
  next => exact ⟨List.find?_some h, Or.inr (List.mem_of_find?_eq_some h)⟩

/-- Gives the copy of a policy definition its identifier. -/
def definition (group name : String) (p : PolicyDefinition) : PolicyDefinition :=
  { p with id := some (ResourceId.policyDefinition group name) }

/-- Points a member of a set definition at the nearest owner of its definition. -/
def member (ctx : DeploymentContext) (group set : String) (m : SetMember) :
    SetMember × Option HierarchyError :=
  match m.definitionName with
  | .error cause => (m, some (.invalidReference group .policySetDefinition set cause))
  | .ok name =>
    match ctx.definitionOwners.get? name with
    | none => (m, none)
    | some owners =>
      match nearestOwner group ctx.ancestors owners with
      | none =>
        (m, some (.unreachableDefinition group .policySetDefinition set m.label name owners.toList))
      | some owner =>
        ({ m with policyDefinitionId := ResourceId.policyDefinition owner name }, none)

/-- Gives the copy of a set definition its identifier and points its members. -/
def setDefinition (ctx : DeploymentContext) (group name : String) (p : PolicySetDefinition) :
    PolicySetDefinition × Option HierarchyError :=
  let (members, failure) := OrderedMap.changeUntil (member ctx group name) p.properties.members
  ({ p with
      id := some (ResourceId.policySetDefinition group name)
      properties := { p.properties with members } }, failure)

/-- A text with a suffix that it has already or is given. -/
def withSuffix (suffix s : String) : String :=
  if Text.finishesWith suffix s then s else s ++ suffix

/-- Gives the copy of a role definition a name of its own. -/
def uniqueRole (group name : String) (r : RoleDefinition) : RoleDefinition :=
  { r with
    name := uniqueRoleName group name
    properties := { r.properties with
      roleName := withSuffix s!" ({group})" r.properties.roleName } }

/-- Gives the copy of a role definition its identifier and its scope. -/
def role (ctx : DeploymentContext) (group name : String) (r : RoleDefinition) : RoleDefinition :=
  let r := if ctx.uniqueRoles then uniqueRole group name r else r
  { r with
    id := some (ResourceId.roleDefinition group r.name)
    properties := { r.properties with
      assignableScopes := [ResourceId.managementGroup group] } }

/-- Gives the copy of an assignment its identifier, its scope and, if it has a location, that of the
group. -/
def stamped (g : Group) (name : String) (a : PolicyAssignment) : PolicyAssignment :=
  { a with
    id := some (ResourceId.policyAssignment g.id name)
    location := a.location.map fun _ => g.location
    properties := { a.properties with scope := some g.resourceId } }

/-- Points an assignment at an identifier. -/
def pointed (a : PolicyAssignment) (definitionId : String) : PolicyAssignment :=
  { a with properties := { a.properties with policyDefinitionId := definitionId } }

/-- Points an assignment at the nearest owner of what it refers to. -/
def assignment (ctx : DeploymentContext) (g : Group) (name : String) (a : PolicyAssignment) :
    PolicyAssignment × Option HierarchyError :=
  let a := stamped g name a
  let point (index : OwnerIndex) (template : String → String → String) (definition : String) :=
    match index.get? definition with
    | none => (a, none)
    | some owners =>
      match nearestOwner g.id ctx.ancestors owners with
      | none =>
        (a, some (.unreachableDefinition g.id .policyAssignment name
          a.properties.policyDefinitionId definition owners.toList))
      | some owner => (pointed a (template owner definition), none)
  match a.referencedDefinition with
  | .error cause => (a, some (.invalidReference g.id .policyAssignment name cause))
  | .ok (.definition definition) =>
    point ctx.definitionOwners ResourceId.policyDefinition definition
  | .ok (.setDefinition definition) =>
    point ctx.setDefinitionOwners ResourceId.policySetDefinition definition

end Deployment

/-- Deploys the assets of a group, in the order: policy definitions, set definitions, role
definitions, assignments. -/
def Group.deploy (g : Group) (ctx : DeploymentContext) : Group × Option HierarchyError :=
  let (sets, failure) := g.policySetDefinitions.mapUntil (Deployment.setDefinition ctx g.id)
  let g := { g with
    policyDefinitions := g.policyDefinitions.map (Deployment.definition g.id)
    policySetDefinitions := sets }
  match failure with
  | some e => (g, some e)
  | none =>
    let (assignments, failure) := g.policyAssignments.mapUntil (Deployment.assignment ctx g)
    ({ g with
        roleDefinitions := g.roleDefinitions.map (Deployment.role ctx g.id)
        policyAssignments := assignments }, failure)

end Governance
