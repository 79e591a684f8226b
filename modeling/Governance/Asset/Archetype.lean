import Governance.Json.Record

/-!
# Archetypes

An archetype lists the assets that a management group carries, by kind and name. An override makes a
new archetype out of another one by taking names away and adding others.
-/

set_option autoImplicit false

namespace Governance

open Json

/-- The assets that a management group carries, by name. -/
structure Archetype where
  name : String
  policyDefinitions : OrderedSet String
  policySetDefinitions : OrderedSet String
  policyAssignments : OrderedSet String
  roleDefinitions : OrderedSet String
  deriving DecidableEq

/-- A change to the names of one kind. -/
structure NameChange where
  add : OrderedSet String
  remove : OrderedSet String
  deriving DecidableEq

/-- An archetype given by its difference from another one. -/
structure ArchetypeOverride where
  name : String
  base : String
  policyDefinitions : NameChange
  policySetDefinitions : NameChange
  policyAssignments : NameChange
  roleDefinitions : NameChange
  deriving DecidableEq

namespace Archetype

variable {δ : Type} [Source δ]

/-- The names of the fields. -/
def fieldNames : List String :=
  ["name", "policy_definitions", "policy_set_definitions", "policy_assignments",
   "role_definitions"]

/-- Reads an archetype. -/
def decode (d : δ) : Option Archetype := do
  let fs ← readFields fieldNames d
  return {
    name := ← fs.required "name" readText
    policyDefinitions := ← fs.withDefault "policy_definitions" {} readTextSet
    policySetDefinitions := ← fs.withDefault "policy_set_definitions" {} readTextSet
    policyAssignments := ← fs.withDefault "policy_assignments" {} readTextSet
    roleDefinitions := ← fs.withDefault "role_definitions" {} readTextSet }

/-- Writes an archetype. -/
def encode (a : Archetype) : Json := record [
  ("name", some (.string a.name)),
  ("policy_definitions", some (ofTextSet a.policyDefinitions)),
  ("policy_set_definitions", some (ofTextSet a.policySetDefinitions)),
  ("policy_assignments", some (ofTextSet a.policyAssignments)),
  ("role_definitions", some (ofTextSet a.roleDefinitions))]

/-- An archetype without assets. -/
def bare (name : String) : Archetype := ⟨name, {}, {}, {}, {}⟩

/-- The archetype with the assets of another one added. -/
def merge (a b : Archetype) : Archetype where
  name := a.name
  policyDefinitions := a.policyDefinitions.union b.policyDefinitions
  policySetDefinitions := a.policySetDefinitions.union b.policySetDefinitions
  policyAssignments := a.policyAssignments.union b.policyAssignments
  roleDefinitions := a.roleDefinitions.union b.roleDefinitions

end Archetype

/-- Takes names away, then adds others: a name that is in both lists stays. -/
def NameChange.apply (c : NameChange) (names : OrderedSet String) : OrderedSet String :=
  (names.diff c.remove).union c.add

namespace ArchetypeOverride

variable {δ : Type} [Source δ]

/-- The names of the fields. -/
def fieldNames : List String :=
  ["name", "base_archetype", "policy_definitions_to_add", "policy_definitions_to_remove",
   "policy_set_definitions_to_add", "policy_set_definitions_to_remove",
   "policy_assignments_to_add", "policy_assignments_to_remove", "role_definitions_to_add",
   "role_definitions_to_remove"]

/-- Reads the change to the names of one kind. -/
def decodeChange (fs : Fields δ) (kind : String) : Option NameChange := do
  return {
    add := ← fs.withDefault (kind ++ "_to_add") {} readTextSet
    remove := ← fs.withDefault (kind ++ "_to_remove") {} readTextSet }

/-- Reads an override. -/
def decode (d : δ) : Option ArchetypeOverride := do
  let fs ← readFields fieldNames d
  return {
    name := ← fs.required "name" readText
    base := ← fs.required "base_archetype" readText
    policyDefinitions := ← decodeChange fs "policy_definitions"
    policySetDefinitions := ← decodeChange fs "policy_set_definitions"
    policyAssignments := ← decodeChange fs "policy_assignments"
    roleDefinitions := ← decodeChange fs "role_definitions" }

/-- Writes the change to the names of one kind. -/
def encodeChange (kind : String) (c : NameChange) : List (String × Option Json) :=
  [(kind ++ "_to_add", some (ofTextSet c.add)), (kind ++ "_to_remove", some (ofTextSet c.remove))]

/-- Writes an override. -/
def encode (o : ArchetypeOverride) : Json := record (
  [("name", some (.string o.name)), ("base_archetype", some (.string o.base))] ++
  encodeChange "policy_definitions" o.policyDefinitions ++
  encodeChange "policy_set_definitions" o.policySetDefinitions ++
  encodeChange "policy_assignments" o.policyAssignments ++
  encodeChange "role_definitions" o.roleDefinitions)

/-- The archetype that an override makes of its base. -/
def apply (o : ArchetypeOverride) (base : Archetype) : Archetype where
  name := o.name
  policyDefinitions := o.policyDefinitions.apply base.policyDefinitions
  policySetDefinitions := o.policySetDefinitions.apply base.policySetDefinitions
  policyAssignments := o.policyAssignments.apply base.policyAssignments
  roleDefinitions := o.roleDefinitions.apply base.roleDefinitions

end ArchetypeOverride

end Governance
