import Governance.Asset.Parameter
import Governance.Asset.Reference

/-!
# Policy set definitions

A policy set definition gathers policy definitions. Each member refers to a definition and supplies
values for its parameters, which may be expressions over the parameters of the set.
-/

set_option autoImplicit false

namespace Governance

open Json

/-- A member of a set definition. -/
structure SetMember where
  policyDefinitionId : String
  referenceId : Option String
  definitionVersion : Option String
  parameters : OrderedMap String Json
  groupNames : Option (List String)

/-- What a policy set definition says. -/
structure PolicySetDefinitionProperties where
  displayName : Option String
  description : Option String
  policyType : Option String
  version : Option String
  metadata : Option Json
  parameters : OrderedMap String ParameterDefinition
  members : List SetMember
  groups : Option (List Json)

/-- A policy set definition. -/
structure PolicySetDefinition where
  name : String
  id : Option String
  resourceType : String
  properties : PolicySetDefinitionProperties

namespace SetMember

variable {δ : Type} [Source δ]

/-- The names of the fields. -/
def fieldNames : List String :=
  ["policyDefinitionId", "policyDefinitionReferenceId", "definitionVersion", "parameters",
   "groupNames"]

/-- Reads a member. -/
def decode (d : δ) : Option SetMember := do
  let fs ← readFields fieldNames d
  return {
    policyDefinitionId := ← fs.required "policyDefinitionId" readText
    referenceId := ← fs.optional "policyDefinitionReferenceId" readText
    definitionVersion := ← fs.optional "definitionVersion" readText
    parameters := ← fs.withDefault "parameters" {} (readMap ParameterValue.decode)
    groupNames := ← fs.optional "groupNames" (readList readText) }

/-- Writes a member. -/
def encode (m : SetMember) : Json := record [
  ("policyDefinitionId", some (.string m.policyDefinitionId)),
  ("policyDefinitionReferenceId", m.referenceId.map .string),
  ("definitionVersion", m.definitionVersion.map .string),
  ("parameters", unlessEmptyMap ParameterValue.encode m.parameters),
  ("groupNames", m.groupNames.map ofTexts)]

/-- The name of the member within the set: its reference id, or else the definition that it refers
to. -/
def label (m : SetMember) : String := m.referenceId.getD m.policyDefinitionId

/-- The name of the definition that the member refers to. -/
def definitionName (m : SetMember) : Except ReferenceError String :=
  Reference.definitionName m.policyDefinitionId

end SetMember

namespace PolicySetDefinitionProperties

variable {δ : Type} [Source δ]

/-- The names of the fields. -/
def fieldNames : List String :=
  ["displayName", "description", "policyType", "version", "metadata", "parameters",
   "policyDefinitions", "policyDefinitionGroups"]

/-- Reads the properties. -/
def decode (d : δ) : Option PolicySetDefinitionProperties := do
  let fs ← readFields fieldNames d
  return {
    displayName := ← fs.optional "displayName" readText
    description := ← fs.optional "description" readText
    policyType := ← fs.optional "policyType" readText
    version := ← fs.optional "version" readText
    metadata := ← fs.optional "metadata" readAny
    parameters := ← fs.withDefault "parameters" {} (readMap ParameterDefinition.decode)
    members := ← fs.withDefault "policyDefinitions" [] (readList SetMember.decode)
    groups := ← fs.optional "policyDefinitionGroups" (readList readAny) }

/-- Writes the properties. -/
def encode (p : PolicySetDefinitionProperties) : Json := record [
  ("displayName", p.displayName.map .string),
  ("description", p.description.map .string),
  ("policyType", p.policyType.map .string),
  ("version", p.version.map .string),
  ("metadata", p.metadata),
  ("parameters", unlessEmptyMap ParameterDefinition.encode p.parameters),
  ("policyDefinitions", some (Json.ofList SetMember.encode p.members)),
  ("policyDefinitionGroups", p.groups.map .array)]

end PolicySetDefinitionProperties

namespace PolicySetDefinition

variable {δ : Type} [Source δ]

/-- The names of the fields. -/
def fieldNames : List String := ["name", "id", "type", "properties"]

/-- Reads a policy set definition. -/
def decode (d : δ) : Option PolicySetDefinition := do
  let fs ← readFields fieldNames d
  return {
    name := ← fs.required "name" readText
    id := ← fs.optional "id" readText
    resourceType := ← fs.withDefault "type" ResourceType.policySetDefinition readText
    properties := ← fs.required "properties" PolicySetDefinitionProperties.decode }

/-- Writes a policy set definition. -/
def encode (p : PolicySetDefinition) : Json := record [
  ("name", some (.string p.name)),
  ("id", p.id.map .string),
  ("type", some (.string p.resourceType)),
  ("properties", some p.properties.encode)]

/-- The version of the set definition. -/
def version (p : PolicySetDefinition) : Option String := p.properties.version

/-- The default values of the parameters that have one. -/
def defaultValues (p : PolicySetDefinition) : OrderedMap String Json :=
  p.properties.parameters.filterMap fun _ parameter => parameter.defaultValue

end PolicySetDefinition

end Governance
