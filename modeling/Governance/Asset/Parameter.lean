import Governance.Json.Record

/-!
# Parameters

Definitions declare parameters; assignments and the members of set definitions supply values for
them. A declared parameter is optional when it has a default value. Its metadata may ask for
permissions on the resource that the value names.
-/

set_option autoImplicit false

namespace Governance

open Json

/-- What a definition says about a parameter beside its type. Members of the metadata that have no
field here are kept as they are. -/
structure ParameterMetadata where
  displayName : Option String
  description : Option String
  assignPermissions : Bool
  extra : OrderedMap String Json

/-- A parameter that a definition declares. -/
structure ParameterDefinition where
  parameterType : String
  defaultValue : Option Json
  allowedValues : Option (List Json)
  metadata : Option ParameterMetadata

namespace ParameterMetadata

variable {δ : Type} [Source δ]

/-- The names of the fields. -/
def fieldNames : List String := ["displayName", "description", "assignPermissions"]

/-- Reads metadata, which must be an object. -/
def decode (d : δ) : Option ParameterMetadata := do
  match Source.layer d with
  | some (.object members) =>
    let fs ← readFields fieldNames d
    let rest := members.filter fun m => !fieldNames.contains m.1
    return {
      displayName := ← fs.optional "displayName" readText
      description := ← fs.optional "description" readText
      assignPermissions := ← fs.withDefault "assignPermissions" false readBool
      extra := OrderedMap.ofList (← readMembers readAny rest) }
  | _ => none

/-- Writes metadata, the members without a field last. -/
def encode (m : ParameterMetadata) : Json :=
  record ([
    ("displayName", m.displayName.map .string),
    ("description", m.description.map .string),
    ("assignPermissions", if m.assignPermissions then some (.bool true) else none)] ++
    m.extra.entries.map fun e => (e.1, some e.2))

end ParameterMetadata

namespace ParameterDefinition

variable {δ : Type} [Source δ]

/-- Whether the parameter may be left without a value. -/
def isOptional (p : ParameterDefinition) : Bool := p.defaultValue.isSome

/-- Whether the parameter asks for permissions on the resource that its value names. -/
def assignPermissions (p : ParameterDefinition) : Bool :=
  p.metadata.any ParameterMetadata.assignPermissions

/-- The names of the fields. -/
def fieldNames : List String := ["type", "defaultValue", "allowedValues", "metadata"]

/-- Reads a declared parameter. -/
def decode (d : δ) : Option ParameterDefinition := do
  let fs ← readFields fieldNames d
  return {
    parameterType := ← fs.required "type" readText
    defaultValue := ← fs.optional "defaultValue" readAny
    allowedValues := ← fs.optional "allowedValues" (readList readAny)
    metadata := ← fs.optional "metadata" ParameterMetadata.decode }

/-- Writes a declared parameter. -/
def encode (p : ParameterDefinition) : Json := record [
  ("type", some (.string p.parameterType)),
  ("defaultValue", p.defaultValue),
  ("allowedValues", p.allowedValues.map .array),
  ("metadata", p.metadata.map ParameterMetadata.encode)]

end ParameterDefinition

namespace ParameterValue

variable {δ : Type} [Source δ]

/-- Reads a supplied value, which stands in a record of its own. -/
def decode (d : δ) : Option Json := do
  let fs ← readFields ["value"] d
  fs.required "value" readAny

/-- Writes a supplied value. -/
def encode (v : Json) : Json := record [("value", some v)]

end ParameterValue

end Governance
