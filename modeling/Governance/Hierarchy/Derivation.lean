import Governance.Expression.Evaluation
import Governance.Hierarchy.Growth

/-!
# Deriving role grants

An assignment with an identity needs the roles that the rules of its definitions ask for, at its
group and at every resource that a parameter with `assignPermissions` names. For a set definition
the values of parameters are those that its members supply, evaluated under the defaults of the set
with the values of the assignment laid over them.

A parameter whose value is no scope is reported and costs only its own grants. A required parameter
without a value, and an identity that no role is asked for, fail the whole derivation, which then
changes nothing.
-/

set_option autoImplicit false

namespace Governance

open Json

/-- A parameter whose value gives no scope. -/
structure DerivationError where
  group : String
  assignment : String
  parameter : String
  /-- The member of a set that the parameter belongs to. -/
  reference : Option String
  /-- The roles that are not granted at the scope. -/
  roleDefinitionIds : List String
  reason : String

/-- What a derivation yields. -/
structure GrantReport where
  grants : OrderedSet RoleGrant
  errors : List DerivationError

/-- What is found for a part of a hierarchy. -/
structure Findings where
  grants : List RoleGrant
  errors : List DerivationError

namespace DerivationError

/-- The message of an error. -/
def message (e : DerivationError) : String :=
  let member := match e.reference with
    | some reference => s!" (set member `{reference}`)"
    | none => ""
  s!"management group `{e.group}`: policy assignment `{e.assignment}`: parameter " ++
    s!"`{e.parameter}`{member}: {e.reason}"

/-- Writes an error. -/
def encode (e : DerivationError) : Json := record [
  ("management_group", some (.string e.group)),
  ("assignment", some (.string e.assignment)),
  ("parameter", some (.string e.parameter)),
  ("reference", some (ofText? e.reference)),
  ("role_definition_ids", some (ofTexts e.roleDefinitionIds)),
  ("reason", some (.string e.reason))]

end DerivationError

namespace GrantReport

/-- Whether every parameter gave a scope. -/
def isComplete (r : GrantReport) : Bool := r.errors.isEmpty

/-- The grants of one group. -/
def forGroup (r : GrantReport) (id : String) : List RoleGrant :=
  r.grants.toList.filter fun g => g.group == id

/-- Writes a report. -/
def encode (r : GrantReport) : Json := record [
  ("assignments", some (Json.ofList RoleGrant.encode r.grants.toList)),
  ("errors", some (Json.ofList DerivationError.encode r.errors))]

end GrantReport

namespace Findings

/-- Nothing. -/
def none : Findings := ⟨[], []⟩

/-- The findings of both parts, in their order. -/
def append (a b : Findings) : Findings := ⟨a.grants ++ b.grants, a.errors ++ b.errors⟩

/-- The findings of all parts, in their order. -/
def join (parts : List Findings) : Findings := parts.foldr append none

end Findings

/-! ### Scopes -/

/-- What a parameter gives. -/
inductive ScopeOutcome where
  | scope (id : String)
  /-- The parameter is optional and has no value. -/
  | absent
  | unusable (reason : String)

/-- The scope that a value is: the identifier of a resource. -/
def scopeOf : Json → ScopeOutcome
  | .string id =>
    match ResourceId.parse id with
    | .ok _ => .scope id
    | .error e => .unusable (s!"`{id}` is not a resource id: " ++ e.message)
  | v => .unusable ("expected a resource id string, got `" ++ v.compact ++ "`")

/-- The scope that the value supplied by a member of a set gives. A text is an expression or a
literal. -/
def scopeOfSupplied (env : Expression.Environment) : Json → ScopeOutcome
  | .string s =>
    match Expression.evaluate env s with
    | .ok v => scopeOf v
    | .error e => .unusable e.message
  | v => scopeOf v

/-- Whether a value supplied by an assignment counts as none. -/
def countsAsMissing : Json → Bool
  | .null => true
  | .string s => s.isEmpty
  | _ => false

/-! ### One assignment -/

/-- An assignment of a group, with the member of a set that it reaches, if it refers to one. -/
structure GrantSite where
  group : Group
  assignment : String
  reference : Option String

namespace GrantSite

variable {σ : Type}

/-- The grants of roles at a scope. -/
def grantsAt (site : GrantSite) (roles : List String) (scope : String) : List RoleGrant :=
  roles.map fun role => ⟨site.assignment, role, scope, site.group.id⟩

/-- The findings for a parameter. -/
def findings (site : GrantSite) (roles : List String) (parameter : String) :
    ScopeOutcome → Findings
  | .scope id => ⟨site.grantsAt roles id, []⟩
  | .absent => .none
  | .unusable reason =>
    ⟨[], [⟨site.group.id, site.assignment, parameter, site.reference, roles, reason⟩]⟩

/-- What a parameter without a value gives: nothing if it is optional, and else a failure. -/
def unsupplied (site : GrantSite) (parameter : String) (p : ParameterDefinition) :
    Query σ ScopeOutcome :=
  if p.isOptional then pure .absent
  else throw (.unresolvedPermissionParameter site.group.id site.assignment parameter
    site.reference)

/-- What a parameter gives, whose value is supplied as `scope` says. -/
def outcome (site : GrantSite) (scope : String → Option ScopeOutcome)
    (e : String × ParameterDefinition) : Query σ ScopeOutcome :=
  match scope e.1 with
  | some outcome => pure outcome
  | none => site.unsupplied e.1 e.2

/-- The findings for a definition that asks for roles: at the group and at the scopes that its
parameters give. -/
def forDefinition (site : GrantSite) (p : PolicyDefinition)
    (scope : String → Option ScopeOutcome) : Query σ Findings := do
  let roles := p.roleDefinitionIds
  let parts ← p.assignPermissionsParameters.mapM fun e => do
    return site.findings roles e.1 (← site.outcome scope e)
  return .append ⟨site.grantsAt roles site.group.resourceId, []⟩ (.join parts)

end GrantSite

namespace Query

variable {σ : Type}

/-- The scope that the value of an assignment for a parameter gives, if there is a value. -/
def directScope (a : PolicyAssignment) (parameter : String) : Option ScopeOutcome :=
  ((a.parameterValue? parameter).filter fun v => !countsAsMissing v).map scopeOf

/-- The findings for an assignment of a policy definition. -/
def deriveDirect (src : AssetSource σ) (g : Group) (name : String) (a : PolicyAssignment)
    (definitionName : String) : Query σ Findings := do
  let p ← definition src g.id none definitionName a.properties.definitionVersion
  if p.roleDefinitionIds.isEmpty then throw (.noRoleDefinitions g.id name definitionName)
  else GrantSite.forDefinition ⟨g, name, none⟩ p (directScope a)

/-- The parameters that the members of a set may refer to: the defaults of the set, with the values
of the assignment laid over them. -/
def memberEnvironment (p : PolicySetDefinition) (a : PolicyAssignment) : Expression.Environment :=
  p.defaultValues.override a.properties.parameters

/-- The findings for a member of a set; `none` where its definition asks for no roles. -/
def deriveMember (src : AssetSource σ) (g : Group) (name set : String)
    (env : Expression.Environment) (m : SetMember) : Query σ (Option Findings) := do
  let definitionName ← memberName g.id set m
  let p ← definition src g.id none definitionName m.definitionVersion
  if p.roleDefinitionIds.isEmpty then return none
  else
    let scope := fun parameter => (m.parameters.get? parameter).map (scopeOfSupplied env)
    return some (← GrantSite.forDefinition ⟨g, name, some m.label⟩ p scope)

/-- The findings for an assignment of a set definition. -/
def deriveSet (src : AssetSource σ) (g : Group) (name : String) (a : PolicyAssignment)
    (set : String) : Query σ Findings := do
  let p ← setDefinition src g.id none set a.properties.definitionVersion
  let parts ← p.properties.members.mapM
    (deriveMember src g name set (memberEnvironment p a))
  if parts.all Option.isNone then throw (.noRoleDefinitions g.id name set)
  else return .join (parts.filterMap id)

/-- The findings for an assignment. -/
def deriveAssignment (src : AssetSource σ) (g : Group) (name : String) (a : PolicyAssignment) :
    Query σ Findings := do
  if !a.usesManagedIdentity then return .none
  else
    match ← target g.id name a with
    | .definition definitionName => deriveDirect src g name a definitionName
    | .setDefinition set => deriveSet src g name a set

/-- The findings for a group. -/
def deriveGroup (src : AssetSource σ) (g : Group) : Query σ Findings := do
  checkStopped src
  let parts ← g.policyAssignments.entries.mapM fun e => deriveAssignment src g e.1 e.2
  return .join parts

/-- The findings for every group, in the order of their ids. -/
def deriveAll (src : AssetSource σ) (r : Registry) : Query σ (List (String × Findings)) :=
  r.entries.mapM fun e => do return (e.1, ← deriveGroup src e.2)

end Query

namespace Hierarchy

variable {σ : Type}

/-- The report of findings. -/
def reportOf (found : List (String × Findings)) : GrantReport where
  grants := OrderedSet.ofList (found.flatMap fun e => e.2.grants)
  errors := found.flatMap fun e => e.2.errors

/-- The registry with the grants of each group replaced by those found for it. -/
def withGrants (r : Registry) (found : List (String × Findings)) : Registry :=
  r.map fun id g =>
    match found.lookup id with
    | some findings => { g with grants := OrderedSet.ofList findings.grants }
    | none => g

/-- Derives the role grants of every group. -/
def derive (src : AssetSource σ) (h : Hierarchy) :
    StateM σ (Except HierarchyError GrantReport × Hierarchy) := do
  match ← (Query.deriveAll src h.groups).run with
  | .error e => return (.error e, h)
  | .ok found => return (.ok (reportOf found), { h with groups := withGrants h.groups found })

end Hierarchy

end Governance
