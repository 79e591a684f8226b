import Governance.Asset.Parameter
import Governance.Asset.Reference

/-!
# Policy assignments

A policy assignment puts a definition or a set definition into force at a scope, with values for its
parameters. An assignment whose policies change resources carries an identity.
-/

set_option autoImplicit false

namespace Governance

open Json

/-- Whether an assignment is enforced. -/
inductive EnforcementMode where
  | default
  | doNotEnforce
  deriving DecidableEq

/-- The kind of identity that an assignment carries. -/
inductive IdentityType where
  | systemAssigned
  | userAssigned
  | none
  deriving DecidableEq

/-- The identity of an assignment. -/
structure AssignmentIdentity where
  identityType : IdentityType
  userAssignedIdentities : OrderedMap String Json

/-- A message for resources that are out of line. -/
structure NonComplianceMessage where
  message : String
  referenceId : Option String

/-- What a policy assignment says. -/
structure PolicyAssignmentProperties where
  displayName : Option String
  description : Option String
  policyDefinitionId : String
  definitionVersion : Option String
  scope : Option String
  notScopes : List String
  parameters : OrderedMap String Json
  enforcementMode : Option EnforcementMode
  metadata : Option Json
  nonComplianceMessages : List NonComplianceMessage
  resourceSelectors : List Json
  overrides : List Json

/-- A policy assignment. -/
structure PolicyAssignment where
  name : String
  id : Option String
  resourceType : String
  location : Option String
  identity : Option AssignmentIdentity
  properties : PolicyAssignmentProperties

namespace EnforcementMode

variable {δ : Type} [Source δ]

/-- The modes by name. -/
def names : List (String × EnforcementMode) :=
  [("Default", .default), ("DoNotEnforce", .doNotEnforce)]

/-- Reads a mode. -/
def decode (d : δ) : Option EnforcementMode := readChoice names d

/-- Writes a mode. -/
def encode : EnforcementMode → Json
  | .default => .string "Default"
  | .doNotEnforce => .string "DoNotEnforce"

end EnforcementMode

namespace IdentityType

variable {δ : Type} [Source δ]

/-- The kinds of identity by name. -/
def names : List (String × IdentityType) :=
  [("SystemAssigned", .systemAssigned), ("UserAssigned", .userAssigned), ("None", .none)]

/-- Reads a kind of identity. -/
def decode (d : δ) : Option IdentityType := readChoice names d

/-- Writes a kind of identity. -/
def encode : IdentityType → Json
  | .systemAssigned => .string "SystemAssigned"
  | .userAssigned => .string "UserAssigned"
  | .none => .string "None"

end IdentityType

namespace AssignmentIdentity

variable {δ : Type} [Source δ]

/-- The names of the fields. -/
def fieldNames : List String := ["type", "userAssignedIdentities"]

/-- Reads an identity. -/
def decode (d : δ) : Option AssignmentIdentity := do
  let fs ← readFields fieldNames d
  return {
    identityType := ← fs.required "type" IdentityType.decode
    userAssignedIdentities := ← fs.withDefault "userAssignedIdentities" {} (readMap readAny) }

/-- Writes an identity. -/
def encode (i : AssignmentIdentity) : Json := record [
  ("type", some i.identityType.encode),
  ("userAssignedIdentities", unlessEmptyMap id i.userAssignedIdentities)]

end AssignmentIdentity

namespace NonComplianceMessage

variable {δ : Type} [Source δ]

/-- The names of the fields. -/
def fieldNames : List String := ["message", "policyDefinitionReferenceId"]

/-- Reads a message. -/
def decode (d : δ) : Option NonComplianceMessage := do
  let fs ← readFields fieldNames d
  return {
    message := ← fs.required "message" readText
    referenceId := ← fs.optional "policyDefinitionReferenceId" readText }

/-- Writes a message. -/
def encode (m : NonComplianceMessage) : Json := record [
  ("message", some (.string m.message)),
  ("policyDefinitionReferenceId", m.referenceId.map .string)]

end NonComplianceMessage

namespace PolicyAssignmentProperties

variable {δ : Type} [Source δ]

/-- The names of the fields. -/
def fieldNames : List String :=
  ["displayName", "description", "policyDefinitionId", "definitionVersion", "scope", "notScopes",
   "parameters", "enforcementMode", "metadata", "nonComplianceMessages", "resourceSelectors",
   "overrides"]

/-- Reads the properties. -/
def decode (d : δ) : Option PolicyAssignmentProperties := do
  let fs ← readFields fieldNames d
  return {
    displayName := ← fs.optional "displayName" readText
    description := ← fs.optional "description" readText
    policyDefinitionId := ← fs.required "policyDefinitionId" readText
    definitionVersion := ← fs.optional "definitionVersion" readText
    scope := ← fs.optional "scope" readText
    notScopes := ← fs.withDefault "notScopes" [] (readList readText)
    parameters := ← fs.withDefault "parameters" {} (readMap ParameterValue.decode)
    enforcementMode := ← fs.optional "enforcementMode" EnforcementMode.decode
    metadata := ← fs.optional "metadata" readAny
    nonComplianceMessages :=
      ← fs.withDefault "nonComplianceMessages" [] (readList NonComplianceMessage.decode)
    resourceSelectors := ← fs.withDefault "resourceSelectors" [] (readList readAny)
    overrides := ← fs.withDefault "overrides" [] (readList readAny) }

/-- Writes the properties. -/
def encode (p : PolicyAssignmentProperties) : Json := record [
  ("displayName", p.displayName.map .string),
  ("description", p.description.map .string),
  ("policyDefinitionId", some (.string p.policyDefinitionId)),
  ("definitionVersion", p.definitionVersion.map .string),
  ("scope", p.scope.map .string),
  ("notScopes", unlessEmpty .string p.notScopes),
  ("parameters", unlessEmptyMap ParameterValue.encode p.parameters),
  ("enforcementMode", p.enforcementMode.map EnforcementMode.encode),
  ("metadata", p.metadata),
  ("nonComplianceMessages", unlessEmpty NonComplianceMessage.encode p.nonComplianceMessages),
  ("resourceSelectors", unlessEmpty id p.resourceSelectors),
  ("overrides", unlessEmpty id p.overrides)]

end PolicyAssignmentProperties

namespace PolicyAssignment

variable {δ : Type} [Source δ]

/-- The names of the fields. -/
def fieldNames : List String := ["name", "id", "type", "location", "identity", "properties"]

/-- Reads a policy assignment. -/
def decode (d : δ) : Option PolicyAssignment := do
  let fs ← readFields fieldNames d
  return {
    name := ← fs.required "name" readText
    id := ← fs.optional "id" readText
    resourceType := ← fs.withDefault "type" ResourceType.policyAssignment readText
    location := ← fs.optional "location" readText
    identity := ← fs.optional "identity" AssignmentIdentity.decode
    properties := ← fs.required "properties" PolicyAssignmentProperties.decode }

/-- Writes a policy assignment. -/
def encode (a : PolicyAssignment) : Json := record [
  ("name", some (.string a.name)),
  ("id", a.id.map .string),
  ("type", some (.string a.resourceType)),
  ("location", a.location.map .string),
  ("identity", a.identity.map AssignmentIdentity.encode),
  ("properties", some a.properties.encode)]

/-- Whether the assignment carries an identity that can be granted roles. -/
def usesManagedIdentity (a : PolicyAssignment) : Bool :=
  a.identity.any fun i => i.identityType != .none

/-- The definition that the assignment refers to. -/
def referencedDefinition (a : PolicyAssignment) : Except ReferenceError ReferencedDefinition :=
  Reference.target a.properties.policyDefinitionId

/-- The value supplied for a parameter. -/
def parameterValue? (a : PolicyAssignment) (name : String) : Option Json :=
  a.properties.parameters.get? name

end PolicyAssignment

end Governance
