import Governance.Hierarchy.Query

/-!
# Assets of a new group

A group carries the assets that its archetypes list. Every one of them is looked up and copied;
definitions in their highest version. Before an assignment of a set definition is copied, the
members of the set are checked: they may supply values only for parameters that their definitions
declare.
-/

set_option autoImplicit false

namespace Governance

/-- What a group is to be made of. -/
structure GroupRequest where
  id : String
  displayName : String
  parent : Parent
  location : String
  existing : Bool
  archetypes : List String

/-- The names of the assets of a group, each with the first archetype that lists it. -/
structure NamedAssets where
  policyDefinitions : OrderedMap String String
  policySetDefinitions : OrderedMap String String
  policyAssignments : OrderedMap String String
  roleDefinitions : OrderedMap String String

/-- Copies of assets by name. -/
structure AssetCopies where
  policyDefinitions : OrderedMap String PolicyDefinition
  policySetDefinitions : OrderedMap String PolicySetDefinition
  policyAssignments : OrderedMap String PolicyAssignment
  roleDefinitions : OrderedMap String RoleDefinition

namespace NamedAssets

/-- No names. -/
def empty : NamedAssets := ⟨{}, {}, {}, {}⟩

/-- Notes the archetype for those names that have none yet. -/
def note (archetype : String) (m : OrderedMap String String) (names : OrderedSet String) :
    OrderedMap String String :=
  names.toList.foldl (fun m name => m.insertNew name archetype) m

/-- The names with those of an archetype added. -/
def absorb (n : NamedAssets) (a : Archetype) : NamedAssets where
  policyDefinitions := note a.name n.policyDefinitions a.policyDefinitions
  policySetDefinitions := note a.name n.policySetDefinitions a.policySetDefinitions
  policyAssignments := note a.name n.policyAssignments a.policyAssignments
  roleDefinitions := note a.name n.roleDefinitions a.roleDefinitions

end NamedAssets

namespace Query

variable {σ α : Type}

/-- The names of the assets of archetypes. -/
def named (src : AssetSource σ) (group : String) : NamedAssets → List String → Query σ NamedAssets
  | n, [] => pure n
  | n, archetype :: rest => do
    let a ← require (.archetypeNotFound group archetype) (src.archetype archetype)
    named src group (n.absorb a) rest

/-- Collects what `f` gives for each name and its archetype, in the order of the names. -/
def collect (f : String → String → Query σ α) (names : OrderedMap String String) :
    Query σ (OrderedMap String α) := do
  let found ← names.entries.mapM fun e => do return (e.1, ← f e.1 e.2)
  return OrderedMap.ofList found

/-- Checks that a member of a set supplies values only for declared parameters. -/
def checkMember (src : AssetSource σ) (group archetype assignment set : String) (m : SetMember) :
    Query σ Unit := do
  let name ← memberName group set m
  let p ← definition src group (some archetype) name m.definitionVersion
  match m.parameters.keys.find? fun parameter => (p.parameter? parameter).isNone with
  | some parameter =>
    throw (.parameterMismatch group assignment set m.label parameter name)
  | none => pure ()

/-- Checks the members of the set that an assignment refers to, if it refers to one. -/
def checkMembers (src : AssetSource σ) (group archetype : String) (a : PolicyAssignment) :
    Query σ Unit := do
  match ← target group a.name a with
  | .definition _ => pure ()
  | .setDefinition set => do
    let p ← setDefinition src group (some archetype) set a.properties.definitionVersion
    p.properties.members.forM (checkMember src group archetype a.name set)

/-- The copy of an assignment, after its check. -/
def assignmentCopy (src : AssetSource σ) (group name archetype : String) :
    Query σ PolicyAssignment := do
  let a ← require (.assetNotFound group .policyAssignment name archetype)
    (src.policyAssignment name)
  checkMembers src group archetype a
  return a

/-- The copy of a role definition. -/
def roleCopy (src : AssetSource σ) (group name archetype : String) : Query σ RoleDefinition :=
  require (.assetNotFound group .roleDefinition name archetype) (src.roleDefinition name)

/-- The copies of the assets of a group. -/
def copies (src : AssetSource σ) (group : String) (n : NamedAssets) : Query σ AssetCopies := do
  let policyAssignments ← collect (assignmentCopy src group) n.policyAssignments
  let policyDefinitions ←
    collect (fun name archetype => definition src group (some archetype) name none)
      n.policyDefinitions
  let policySetDefinitions ←
    collect (fun name archetype => setDefinition src group (some archetype) name none)
      n.policySetDefinitions
  let roleDefinitions ← collect (roleCopy src group) n.roleDefinitions
  return { policyDefinitions, policySetDefinitions, policyAssignments, roleDefinitions }

end Query

end Governance
