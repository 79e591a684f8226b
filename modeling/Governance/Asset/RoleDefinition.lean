import Governance.Json.Record
import Governance.ResourceId

/-!
# Role definitions

A role definition gives a set of permissions a name and says where it may be assigned.
-/

set_option autoImplicit false

namespace Governance

open Json

/-- A permission: what may be done and what is excepted. -/
structure Permission where
  actions : List String
  notActions : List String
  dataActions : List String
  notDataActions : List String

/-- What a role definition says. -/
structure RoleDefinitionProperties where
  roleName : String
  description : Option String
  roleType : Option String
  permissions : List Permission
  assignableScopes : List String

/-- A role definition. -/
structure RoleDefinition where
  name : String
  id : Option String
  resourceType : String
  properties : RoleDefinitionProperties

namespace Permission

variable {δ : Type} [Source δ]

/-- The names of the fields. -/
def fieldNames : List String := ["actions", "notActions", "dataActions", "notDataActions"]

/-- Reads a permission. -/
def decode (d : δ) : Option Permission := do
  let fs ← readFields fieldNames d
  return {
    actions := ← fs.withDefault "actions" [] (readList readText)
    notActions := ← fs.withDefault "notActions" [] (readList readText)
    dataActions := ← fs.withDefault "dataActions" [] (readList readText)
    notDataActions := ← fs.withDefault "notDataActions" [] (readList readText) }

/-- Writes a permission. -/
def encode (p : Permission) : Json := record [
  ("actions", some (ofTexts p.actions)),
  ("notActions", unlessEmpty .string p.notActions),
  ("dataActions", unlessEmpty .string p.dataActions),
  ("notDataActions", unlessEmpty .string p.notDataActions)]

end Permission

namespace RoleDefinitionProperties

variable {δ : Type} [Source δ]

/-- The names of the fields. -/
def fieldNames : List String :=
  ["roleName", "description", "type", "permissions", "assignableScopes"]

/-- Reads the properties. -/
def decode (d : δ) : Option RoleDefinitionProperties := do
  let fs ← readFields fieldNames d
  return {
    roleName := ← fs.required "roleName" readText
    description := ← fs.optional "description" readText
    roleType := ← fs.optional "type" readText
    permissions := ← fs.withDefault "permissions" [] (readList Permission.decode)
    assignableScopes := ← fs.withDefault "assignableScopes" [] (readList readText) }

/-- Writes the properties. -/
def encode (p : RoleDefinitionProperties) : Json := record [
  ("roleName", some (.string p.roleName)),
  ("description", p.description.map .string),
  ("type", p.roleType.map .string),
  ("permissions", some (Json.ofList Permission.encode p.permissions)),
  ("assignableScopes", some (ofTexts p.assignableScopes))]

end RoleDefinitionProperties

namespace RoleDefinition

variable {δ : Type} [Source δ]

/-- The names of the fields. -/
def fieldNames : List String := ["name", "id", "type", "properties"]

/-- Reads a role definition. -/
def decode (d : δ) : Option RoleDefinition := do
  let fs ← readFields fieldNames d
  return {
    name := ← fs.required "name" readText
    id := ← fs.optional "id" readText
    resourceType := ← fs.withDefault "type" ResourceType.roleDefinition readText
    properties := ← fs.required "properties" RoleDefinitionProperties.decode }

/-- Writes a role definition. -/
def encode (r : RoleDefinition) : Json := record [
  ("name", some (.string r.name)),
  ("id", r.id.map .string),
  ("type", some (.string r.resourceType)),
  ("properties", some r.properties.encode)]

end RoleDefinition

end Governance
