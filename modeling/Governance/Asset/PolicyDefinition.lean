import Governance.Asset.Parameter
import Governance.ResourceId

/-!
# Policy definitions

A policy definition declares parameters and a rule. The rule names the roles that the identity of an
assignment needs to bring a resource into line.
-/

set_option autoImplicit false

namespace Governance

open Json

/-- What a policy definition says. -/
structure PolicyDefinitionProperties where
  displayName : Option String
  description : Option String
  policyType : Option String
  mode : Option String
  version : Option String
  metadata : Option Json
  parameters : OrderedMap String ParameterDefinition
  policyRule : Json

/-- A policy definition. -/
structure PolicyDefinition where
  name : String
  id : Option String
  resourceType : String
  properties : PolicyDefinitionProperties

namespace PolicyDefinitionProperties

variable {δ : Type} [Source δ]

/-- The names of the fields. -/
def fieldNames : List String :=
  ["displayName", "description", "policyType", "mode", "version", "metadata", "parameters",
   "policyRule"]

/-- Reads the properties. -/
def decode (d : δ) : Option PolicyDefinitionProperties := do
  let fs ← readFields fieldNames d
  return {
    displayName := ← fs.optional "displayName" readText
    description := ← fs.optional "description" readText
    policyType := ← fs.optional "policyType" readText
    mode := ← fs.optional "mode" readText
    version := ← fs.optional "version" readText
    metadata := ← fs.optional "metadata" readAny
    parameters := ← fs.withDefault "parameters" {} (readMap ParameterDefinition.decode)
    policyRule := ← fs.withDefault "policyRule" .null readAny }

/-- Writes the properties. -/
def encode (p : PolicyDefinitionProperties) : Json := record [
  ("displayName", p.displayName.map .string),
  ("description", p.description.map .string),
  ("policyType", p.policyType.map .string),
  ("mode", p.mode.map .string),
  ("version", p.version.map .string),
  ("metadata", p.metadata),
  ("parameters", unlessEmptyMap ParameterDefinition.encode p.parameters),
  ("policyRule", if p.policyRule.isNull then none else some p.policyRule)]

end PolicyDefinitionProperties

namespace PolicyDefinition

variable {δ : Type} [Source δ]

/-- The names of the fields. -/
def fieldNames : List String := ["name", "id", "type", "properties"]

/-- Reads a policy definition. -/
def decode (d : δ) : Option PolicyDefinition := do
  let fs ← readFields fieldNames d
  return {
    name := ← fs.required "name" readText
    id := ← fs.optional "id" readText
    resourceType := ← fs.withDefault "type" ResourceType.policyDefinition readText
    properties := ← fs.required "properties" PolicyDefinitionProperties.decode }

/-- Writes a policy definition. -/
def encode (p : PolicyDefinition) : Json := record [
  ("name", some (.string p.name)),
  ("id", p.id.map .string),
  ("type", some (.string p.resourceType)),
  ("properties", some p.properties.encode)]

/-- The version of the definition. -/
def version (p : PolicyDefinition) : Option String := p.properties.version

/-- The parameter of a name. -/
def parameter? (p : PolicyDefinition) (name : String) : Option ParameterDefinition :=
  p.properties.parameters.get? name

/-- The identifiers of the roles that the rule asks for. -/
def roleDefinitionIds (p : PolicyDefinition) : List String :=
  match p.properties.policyRule.atPath? ["then", "details", "roleDefinitionIds"] with
  | some (.array ids) => ids.filterMap Json.text?
  | _ => []

/-- The parameters that ask for permissions, in the order of their names. -/
def assignPermissionsParameters (p : PolicyDefinition) : List (String × ParameterDefinition) :=
  p.properties.parameters.entries.filter fun e => e.2.assignPermissions

end PolicyDefinition

end Governance
