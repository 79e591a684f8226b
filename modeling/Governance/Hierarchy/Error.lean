import Governance.Asset.Reference
import Governance.Catalog.Error

/-!
# Errors of hierarchies

Every error names the group, the asset and the parameter that it is about. Errors fall into classes,
which tell a mistake in the shape of the tree from one in the library or in the running of it.
-/

set_option autoImplicit false

namespace Governance

/-- Why an operation on a hierarchy fails. -/
inductive HierarchyError where
  | duplicateManagementGroup (id : String)
  | externalParentIsManagementGroup (id parentId : String)
  | multipleRoots (id existing : String)
  | parentNotFound (id parentId : String)
  | archetypeNotFound (group archetype : String)
  | architectureNotFound (name : String)
  | assetNotFound (group : String) (kind : AssetKind) (name : String) (archetype : Option String)
  | parameterMismatch (group assignment setDefinition reference parameter definition : String)
  | unknownAssignmentParameter (group assignment parameter definition : String)
  | defaultValueNotFound (name : String)
  | managementGroupNotFound (id : String)
  | policyAssignmentNotFound (group assignment : String)
  | unreachableDefinition (group : String) (kind : AssetKind)
      (asset reference definition : String) (owners : List String)
  | invalidReference (group : String) (kind : AssetKind) (asset : String) (cause : ReferenceError)
  | noRoleDefinitions (group assignment definition : String)
  | unresolvedPermissionParameter (group assignment parameter : String) (reference : Option String)
  | architecture (architecture group : String) (cause : HierarchyError)
  | catalog (cause : CatalogError)
  | cancelled

/-- The class of an error. -/
inductive ErrorClass where
  /-- The shape of the tree: groups that are there twice, parents that are not there. -/
  | structural
  /-- An asset that is missing or does not fit. -/
  | assetResolution
  /-- A reference to an asset that does not reach to where it is used. -/
  | reachability
  /-- Grants that could not be derived. -/
  | roleAssignmentDerivation
  /-- The catalog or the caller. -/
  | operational
  deriving DecidableEq

namespace HierarchyError

/-- The message of an error. -/
def message : HierarchyError → String
  | .duplicateManagementGroup id => s!"management group `{id}` already exists"
  | .externalParentIsManagementGroup id parentId =>
    s!"management group `{id}`: external parent `{parentId}` is a management group in this " ++
      "hierarchy"
  | .multipleRoots id existing =>
    s!"management group `{id}`: `{existing}` already has an external parent; only one root is " ++
      "allowed"
  | .parentNotFound id parentId => s!"management group `{id}`: parent `{parentId}` not found"
  | .archetypeNotFound group archetype =>
    s!"management group `{group}`: archetype `{archetype}` not found"
  | .architectureNotFound name => s!"architecture `{name}` not found"
  | .assetNotFound group kind name archetype =>
    let named := match archetype with
      | some archetype => s!" (named by archetype `{archetype}`)"
      | none => ""
    s!"management group `{group}`: {kind.text} `{name}`{named} not found"
  | .parameterMismatch group assignment setDefinition reference parameter definition =>
    s!"management group `{group}`: policy assignment `{assignment}` uses set definition " ++
      s!"`{setDefinition}` whose reference `{reference}` passes parameter `{parameter}` that " ++
      s!"policy definition `{definition}` does not declare"
  | .unknownAssignmentParameter group assignment parameter definition =>
    s!"management group `{group}`: policy assignment `{assignment}` sets parameter " ++
      s!"`{parameter}` that `{definition}` does not declare"
  | .defaultValueNotFound name => s!"default value `{name}` not found"
  | .managementGroupNotFound id => s!"management group `{id}` not found"
  | .policyAssignmentNotFound group assignment =>
    s!"management group `{group}`: policy assignment `{assignment}` not found"
  | .unreachableDefinition group kind asset reference definition owners =>
    s!"management group `{group}`: {kind.text} `{asset}` references `{definition}` " ++
      s!"(via `{reference}`), which is deployed only at [" ++ ", ".intercalate owners ++
      "], none of which is this management group or an ancestor"
  | .invalidReference group kind asset cause =>
    s!"management group `{group}`: {kind.text} `{asset}`: {cause.message}"
  | .noRoleDefinitions group assignment definition =>
    s!"management group `{group}`: policy assignment `{assignment}` has an identity but " ++
      s!"`{definition}` requires no role definitions"
  | .unresolvedPermissionParameter group assignment parameter reference =>
    let member := match reference with
      | some reference => s!" of set member `{reference}`"
      | none => ""
    s!"management group `{group}`: policy assignment `{assignment}` has no value for required " ++
      s!"parameter `{parameter}`{member}"
  | .architecture name group cause =>
    s!"architecture `{name}`: failed to add management group `{group}`: " ++ cause.message
  | .catalog cause => cause.message
  | .cancelled => "operation cancelled"

/-- The class of an error. An error on the way through an architecture has that of its cause. -/
def errorClass : HierarchyError → ErrorClass
  | .duplicateManagementGroup _ | .externalParentIsManagementGroup _ _ | .multipleRoots _ _
  | .parentNotFound _ _ => .structural
  | .archetypeNotFound _ _ | .architectureNotFound _ | .assetNotFound _ _ _ _
  | .parameterMismatch _ _ _ _ _ _ | .unknownAssignmentParameter _ _ _ _
  | .defaultValueNotFound _ | .managementGroupNotFound _ | .policyAssignmentNotFound _ _ =>
    .assetResolution
  | .unreachableDefinition _ _ _ _ _ _ | .invalidReference _ _ _ _ => .reachability
  | .noRoleDefinitions _ _ _ | .unresolvedPermissionParameter _ _ _ _ => .roleAssignmentDerivation
  | .architecture _ _ cause => cause.errorClass
  | .catalog _ | .cancelled => .operational

end HierarchyError

end Governance
