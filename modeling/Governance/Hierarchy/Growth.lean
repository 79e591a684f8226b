import Governance.Asset.Architecture
import Governance.Hierarchy.Assets
import Governance.Hierarchy.Deployment

/-!
# Growing a hierarchy

A group is added below a group that is there already, or as the only root below a place outside of
the hierarchy. When the request fits the tree and its assets were found, the group is linked to its
parent and its assets are deployed. A failure before that leaves the hierarchy as it was; a failure
to deploy leaves the group in it.

An architecture is added place by place, each before those below it, up to the first failure or to
the caller's signal to stop.

* `level?_group`: below a group, the level is one more than that of the group.
-/

set_option autoImplicit false

namespace Governance

/-- A tree of management groups. -/
structure Hierarchy where
  groups : Registry
  /-- Whether each copy of a role definition gets a name of its own. -/
  uniqueRoles : Bool

namespace Hierarchy

variable {σ : Type}

/-- The hierarchy without groups. -/
def empty (uniqueRoles : Bool) : Hierarchy := ⟨{}, uniqueRoles⟩

/-! ### Adding one group -/

/-- The level at which a group would stand, if it fits the tree. -/
def level? (r : Registry) (id : String) (parent : Parent) : Except HierarchyError Nat :=
  if r.contains id then .error (.duplicateManagementGroup id)
  else match parent with
    | .external parentId =>
      if r.contains parentId then .error (.externalParentIsManagementGroup id parentId)
      else match r.values.find? fun g => g.externalParent?.isSome with
        | some g => .error (.multipleRoots id g.id)
        | none => .ok 0
    | .group parentId =>
      match r.get? parentId with
      | some g => .ok (g.level + 1)
      | none => .error (.parentNotFound id parentId)

/-- Below a group, the level is one more than that of the group. -/
theorem level?_group {r : Registry} {id parentId : String} {level : Nat}
    (h : level? r id (.group parentId) = .ok level) :
    r.contains id = false ∧ ∃ g, r.get? parentId = some g ∧ level = g.level + 1 := by
  unfold level? at h
  grind

/-- A new group with copies of its assets, not linked yet. -/
def newGroup (req : GroupRequest) (level : Nat) (copies : AssetCopies) : Group where
  id := req.id
  displayName := req.displayName
  existing := req.existing
  level := level
  location := req.location
  parent := req.parent
  children := {}
  policyDefinitions := copies.policyDefinitions
  policySetDefinitions := copies.policySetDefinitions
  policyAssignments := copies.policyAssignments
  roleDefinitions := copies.roleDefinitions
  grants := {}

/-- The group that a request asks for, if it fits the tree and its assets are found. -/
def prepare (src : AssetSource σ) (r : Registry) (req : GroupRequest) : Query σ Group := do
  let level ← MonadExcept.ofExcept (level? r req.id req.parent)
  let named ← Query.named src req.id .empty req.archetypes
  return newGroup req level (← Query.copies src req.id named)

/-- Notes a group as a child of its parent. -/
def noteChild (g : Group) (parent : Group) : Group :=
  { parent with children := parent.children.insert g.id }

/-- The registry with a group added and linked to its parent. -/
def link (r : Registry) (g : Group) : Registry :=
  match g.parent with
  | .group parentId => (r.modify parentId (noteChild g)).insert g.id g
  | .external _ => r.insert g.id g

/-- What a registered group has to know of the others. -/
def context (r : Registry) (uniqueRoles : Bool) (id : String) : DeploymentContext where
  ancestors := r.ancestors id
  definitionOwners := r.definitionOwners
  setDefinitionOwners := r.setDefinitionOwners
  uniqueRoles := uniqueRoles

/-- Links a prepared group and deploys its assets. -/
def settle (h : Hierarchy) (g : Group) : Except HierarchyError Group × Hierarchy :=
  let r := link h.groups g
  let (g, failure) := g.deploy (context r h.uniqueRoles g.id)
  (match failure with
    | some e => .error e
    | none => .ok g,
   { h with groups := r.insert g.id g })

/-- Adds a group. -/
def add (src : AssetSource σ) (h : Hierarchy) (req : GroupRequest) :
    StateM σ (Except HierarchyError Group × Hierarchy) := do
  match ← (prepare src h.groups req).run with
  | .error e => return (.error e, h)
  | .ok g => return h.settle g

/-! ### Adding an architecture -/

mutual

/-- The places of a tree with what each hangs below, each before those below it. -/
def placements (parent : Parent) : ArchitectureTree → List (Position × Parent)
  | .node p children => (p, parent) :: placementsOf (.group p.id) children

/-- The places of trees with what each hangs below, one tree after another. -/
def placementsOf (parent : Parent) : List ArchitectureTree → List (Position × Parent)
  | [] => []
  | t :: rest => placements parent t ++ placementsOf parent rest

end

/-- The request for a place. -/
def requestFor (location : String) (p : Position) (parent : Parent) : GroupRequest where
  id := p.id
  displayName := p.displayName
  parent := parent
  location := location
  existing := p.existing
  archetypes := p.archetypes.toList

/-- Adds places until one of them fails or the caller asks to stop. -/
def addAll (src : AssetSource σ) (architecture location : String) :
    List (Position × Parent) → Hierarchy → StateM σ (Except HierarchyError Unit × Hierarchy)
  | [], h => pure (.ok (), h)
  | (p, parent) :: rest, h => do
    if src.stopped (← get) then return (.error .cancelled, h)
    else
      let (result, h) ← add src h (requestFor location p parent)
      match result with
      | .ok _ => addAll src architecture location rest h
      | .error e => return (.error (.architecture architecture p.id e), h)

/-- Adds the places of an architecture, its roots below a place outside of the hierarchy. -/
def addArchitecture (src : AssetSource σ) (h : Hierarchy) (name externalParent location : String) :
    StateM σ (Except HierarchyError Unit × Hierarchy) := do
  match ← (Query.require (.architectureNotFound name) (src.architecture name)).run with
  | .error e => return (.error e, h)
  | .ok a => addAll src name location (placementsOf (.external externalParent) a.roots) h

end Hierarchy

end Governance
