import Governance.Asset.PolicyAssignment
import Governance.Asset.PolicyDefinition
import Governance.Asset.PolicySetDefinition
import Governance.Asset.RoleDefinition
import Governance.Hierarchy.Grant

/-!
# Management groups

A management group is a place in the tree with copies of its own of the assets that it carries. The
groups of a hierarchy are registered by id; links between them are ids.
-/

set_option autoImplicit false

namespace Governance

/-- What a group hangs below: another group of the hierarchy, or a place outside of it. -/
inductive Parent where
  | group (id : String)
  | external (id : String)
  deriving DecidableEq

/-- A management group with its copies of assets. -/
structure Group where
  id : String
  displayName : String
  /-- Whether the group is there already and must not be created. -/
  existing : Bool
  level : Nat
  location : String
  parent : Parent
  children : OrderedSet String
  policyDefinitions : OrderedMap String PolicyDefinition
  policySetDefinitions : OrderedMap String PolicySetDefinition
  policyAssignments : OrderedMap String PolicyAssignment
  roleDefinitions : OrderedMap String RoleDefinition
  /-- The grants of the last derivation. -/
  grants : OrderedSet RoleGrant

namespace Parent

/-- The id of the parent group. -/
def group? : Parent → Option String
  | .group id => some id
  | .external _ => none

/-- The id of the place outside of the hierarchy. -/
def external? : Parent → Option String
  | .group _ => none
  | .external id => some id

/-- The id, wherever it belongs to. -/
def id : Parent → String
  | .group id => id
  | .external id => id

end Parent

namespace Group

/-- The id of the group in the hierarchy that this one hangs below. -/
def parent? (g : Group) : Option String := g.parent.group?

/-- The id of the place outside of the hierarchy that this group hangs below. -/
def externalParent? (g : Group) : Option String := g.parent.external?

/-- The identifier of the group as a resource, which is also the scope of its assets. -/
def resourceId (g : Group) : String := ResourceId.managementGroup g.id

end Group

/-- The groups of a hierarchy by id. -/
abbrev Registry := OrderedMap String Group

/-- The ids of the groups that hold a copy of an asset, by the name of the asset. -/
abbrev OwnerIndex := OrderedMap String (OrderedSet String)

namespace Registry

/-- The ids above a group, at most `n` of them, the nearest first. -/
def chain (r : Registry) : Nat → String → List String
  | 0, _ => []
  | n + 1, id =>
    match (r.get? id).bind Group.parent? with
    | none => []
    | some parent => parent :: chain r n parent

/-- The ids above a group, the nearest first. External parents do not count. -/
def ancestors (r : Registry) (id : String) : List String := chain r r.size id

/-- Whether a group stands above another one. -/
def isAbove (r : Registry) (candidate id : String) : Bool := (r.ancestors id).contains candidate

/-- Notes a group as a holder of assets. -/
def noteOwner (index : OwnerIndex) (owner : String) (names : List String) : OwnerIndex :=
  names.foldl (fun index name => index.insert name (((index.get? name).getD {}).insert owner)) index

/-- The holders of assets, of which a group holds those that `names` lists. -/
def owners (r : Registry) (names : Group → List String) : OwnerIndex :=
  r.values.foldl (fun index g => noteOwner index g.id (names g)) {}

/-- The holders of policy definitions. -/
def definitionOwners (r : Registry) : OwnerIndex := r.owners fun g => g.policyDefinitions.keys

/-- The holders of policy set definitions. -/
def setDefinitionOwners (r : Registry) : OwnerIndex :=
  r.owners fun g => g.policySetDefinitions.keys

/-- The ids of the groups at a level. -/
def atLevel (r : Registry) (level : Nat) : List String :=
  (r.values.filter fun g => g.level == level).map Group.id

end Registry

end Governance
