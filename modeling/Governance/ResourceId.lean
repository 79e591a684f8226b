import Governance.Text.Ascii
import Governance.Text.Search

/-!
# Resource identifiers

An identifier is a path of segments: pairs that name a subscription or a resource group, then blocks
of a provider namespace followed by pairs of a type and a name. The last pair says what the
identifier names. Keywords are compared without regard to ASCII case, and only where a key stands: a
value may be any segment.

The identifiers of a management group and of the assets deployed at it follow fixed templates, one
for each type of resource.

* `ResourceId.parse_text`: an identifier that was read keeps its text.
-/

set_option autoImplicit false

namespace Governance

/-! ### Types -/

namespace ResourceType

/-- The type of management groups. -/
def managementGroup : String := "Microsoft.Management/managementGroups"

/-- The type of policy definitions. -/
def policyDefinition : String := "Microsoft.Authorization/policyDefinitions"

/-- The type of policy set definitions. -/
def policySetDefinition : String := "Microsoft.Authorization/policySetDefinitions"

/-- The type of policy assignments. -/
def policyAssignment : String := "Microsoft.Authorization/policyAssignments"

/-- The type of role definitions. -/
def roleDefinition : String := "Microsoft.Authorization/roleDefinitions"

/-- The type of subscriptions. -/
def subscription : String := "Microsoft.Resources/subscriptions"

/-- The type of resource groups. -/
def resourceGroup : String := "Microsoft.Resources/resourceGroups"

end ResourceType

/-- An identifier that was read: its text, and the type and name of the resource that it names. -/
structure ResourceId where
  text : String
  resourceType : String
  name : String
  deriving DecidableEq

/-- Why a text is no identifier. -/
inductive ResourceIdError where
  | missingLeadingSlash (id : String)
  | emptySegment (id : String)
  | truncated (id : String)
  | unexpectedSegment (id segment : String)
  deriving DecidableEq

/-- The message of an error. -/
def ResourceIdError.message : ResourceIdError → String
  | .missingLeadingSlash id => s!"resource id `{id}` must start with `/`"
  | .emptySegment id => s!"resource id `{id}` contains an empty segment"
  | .truncated id => s!"resource id `{id}` ends before a name segment"
  | .unexpectedSegment id segment => s!"resource id `{id}` has unexpected segment `{segment}`"

namespace ResourceId

open Text

/-! ### Templates -/

/-- The identifier of a resource below another one. -/
def below (parent resourceType name : String) : String :=
  parent ++ "/providers/" ++ resourceType ++ "/" ++ name

/-- The identifier of a management group. -/
def managementGroup (group : String) : String := below "" ResourceType.managementGroup group

/-- The identifier of a policy definition deployed at a management group. -/
def policyDefinition (group name : String) : String :=
  below (managementGroup group) ResourceType.policyDefinition name

/-- The identifier of a policy set definition deployed at a management group. -/
def policySetDefinition (group name : String) : String :=
  below (managementGroup group) ResourceType.policySetDefinition name

/-- The identifier of a policy assignment of a management group. -/
def policyAssignment (group name : String) : String :=
  below (managementGroup group) ResourceType.policyAssignment name

/-- The identifier of a role definition deployed at a management group. -/
def roleDefinition (group name : String) : String :=
  below (managementGroup group) ResourceType.roleDefinition name

/-! ### Reading -/

/-- Why segments do not name a resource. -/
inductive SegmentFault where
  | truncated
  | unexpected (segment : String)
  deriving DecidableEq

/-- Whether a key opens a block of a provider. -/
def isProviders (key : String) : Bool := equalIgnoringCase key "providers"

/-- The type of a resource in a block: the namespace and the types of all pairs of the block. -/
def blockType (ns : String) (types : List String) : String := ns ++ "/" ++ "/".intercalate types

/-- The type and the name at the end of a block, after `types` (never empty at the end) with the
name of the last of them. -/
def readBlock (ns : String) (types : List String) (name : String) :
    List String → Except SegmentFault (String × String)
  | [] => if types.isEmpty then .error .truncated else .ok (blockType ns types, name)
  | [_] => .error .truncated
  | key :: value :: rest =>
    if isProviders key then
      if types.isEmpty then .error .truncated else readBlock value [] name rest
    else readBlock ns (types ++ [key]) value rest

/-- The type and the name at the end of segments, of which those before gave `resourceType` and
`name`. -/
def readPairs (resourceType name : String) : List String → Except SegmentFault (String × String)
  | [] => .ok (resourceType, name)
  | [_] => .error .truncated
  | key :: value :: rest =>
    if isProviders key then readBlock value [] name rest
    else if equalIgnoringCase key "subscriptions" then
      readPairs ResourceType.subscription value rest
    else if equalIgnoringCase key "resourceGroups" then
      readPairs ResourceType.resourceGroup value rest
    else .error (.unexpected key)

/-- The segments of a text after its leading slash. -/
def segments? (s : String) : Option (List String) :=
  match s.toList with
  | '/' :: rest => some ((cells '/' rest).map String.ofList)
  | _ => none

/-- Reads an identifier. -/
def parse (s : String) : Except ResourceIdError ResourceId :=
  match segments? s with
  | none => .error (.missingLeadingSlash s)
  | some segments =>
    if segments.any String.isEmpty then .error (.emptySegment s)
    else match readPairs "" "" segments with
      | .error .truncated => .error (.truncated s)
      | .error (.unexpected segment) => .error (.unexpectedSegment s segment)
      | .ok (resourceType, name) => .ok ⟨s, resourceType, name⟩

/-- An identifier that was read keeps its text. -/
theorem parse_text {s : String} {id : ResourceId} (h : parse s = .ok id) : id.text = s := by
  unfold parse at h
  grind

/-- The last part of the type. -/
def typeName (id : ResourceId) : String := (splitAtChar '/' id.resourceType).getLastD ""

/-- Whether the identifier names a resource of a type. -/
def isType (id : ResourceId) (resourceType : String) : Bool :=
  equalIgnoringCase id.resourceType resourceType

end ResourceId

end Governance
