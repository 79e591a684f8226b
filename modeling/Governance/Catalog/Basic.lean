import Governance.Asset.Archetype
import Governance.Asset.DefaultValues
import Governance.Asset.PolicyAssignment
import Governance.Asset.PolicyDefinition
import Governance.Asset.PolicySetDefinition
import Governance.Asset.RoleDefinition
import Governance.Catalog.Error
import Governance.Catalog.Versions

/-!
# Catalogs

A catalog holds assets and building blocks by name; policy definitions and set definitions also by
version. A name is taken once: adding never replaces. An archetype override waits in the catalog
until it is resolved against its base, and its name may not be that of an archetype.
-/

set_option autoImplicit false

namespace Governance

/-- The assets and building blocks that hierarchies are made from. -/
structure Catalog where
  policyDefinitions : OrderedMap String (Versions PolicyDefinition)
  policySetDefinitions : OrderedMap String (Versions PolicySetDefinition)
  policyAssignments : OrderedMap String PolicyAssignment
  roleDefinitions : OrderedMap String RoleDefinition
  archetypes : OrderedMap String Archetype
  /-- The overrides that are not resolved yet. -/
  overrides : OrderedMap String ArchetypeOverride
  architectures : OrderedMap String Architecture
  defaults : OrderedMap String DefaultMapping

namespace Catalog

/-- The catalog that holds nothing. -/
def empty : Catalog := ⟨{}, {}, {}, {}, {}, {}, {}, {}⟩

instance : EmptyCollection Catalog := ⟨empty⟩

instance : Inhabited Catalog := ⟨empty⟩

/-! ### Adding -/

/-- Stores a value under a name that is not taken. -/
def addNew {α : Type} (m : OrderedMap String α) (kind : AssetKind) (name : String) (a : α) :
    Except CatalogError (OrderedMap String α) :=
  if m.contains name then .error (.duplicate kind name) else .ok (m.insert name a)

/-- A name with its version, as messages show it. -/
def versionedName (name : String) : Option String → String
  | some version => s!"{name}@{version}"
  | none => name

/-- Stores a value under a name and a version that are not taken together. -/
def addVersion {α : Type} (m : OrderedMap String (Versions α)) (kind : AssetKind) (name : String)
    (version : Option String) (a : α) : Except CatalogError (OrderedMap String (Versions α)) :=
  let versions := (m.get? name).getD .empty
  if versions.contains version then .error (.duplicate kind (versionedName name version))
  else .ok (m.insert name (versions.insert version a))

/-- Adds a policy definition. -/
def addPolicyDefinition (c : Catalog) (p : PolicyDefinition) : Except CatalogError Catalog := do
  return { c with
    policyDefinitions := ← addVersion c.policyDefinitions .policyDefinition p.name p.version p }

/-- Adds a policy set definition. -/
def addPolicySetDefinition (c : Catalog) (p : PolicySetDefinition) :
    Except CatalogError Catalog := do
  return { c with
    policySetDefinitions :=
      ← addVersion c.policySetDefinitions .policySetDefinition p.name p.version p }

/-- Adds a policy assignment. -/
def addPolicyAssignment (c : Catalog) (a : PolicyAssignment) : Except CatalogError Catalog := do
  return { c with policyAssignments := ← addNew c.policyAssignments .policyAssignment a.name a }

/-- Adds a role definition. -/
def addRoleDefinition (c : Catalog) (r : RoleDefinition) : Except CatalogError Catalog := do
  return { c with roleDefinitions := ← addNew c.roleDefinitions .roleDefinition r.name r }

/-- Adds an archetype, whose name may not be that of an override either. -/
def addArchetype (c : Catalog) (a : Archetype) : Except CatalogError Catalog := do
  if c.overrides.contains a.name then .error (.duplicate .archetype a.name)
  else return { c with archetypes := ← addNew c.archetypes .archetype a.name a }

/-- Adds an override, whose name may not be that of an archetype either. -/
def addOverride (c : Catalog) (o : ArchetypeOverride) : Except CatalogError Catalog := do
  if c.archetypes.contains o.name then .error (.duplicate .archetype o.name)
  else return { c with overrides := ← addNew c.overrides .archetypeOverride o.name o }

/-- Adds an architecture. -/
def addArchitecture (c : Catalog) (a : Architecture) : Except CatalogError Catalog := do
  return { c with architectures := ← addNew c.architectures .architecture a.name a }

/-- Adds a named default. -/
def addDefault (c : Catalog) (d : DefaultMapping) : Except CatalogError Catalog := do
  return { c with defaults := ← addNew c.defaults .defaultValues d.name d }

/-! ### Resolving overrides -/

/-- Resolves overrides one after another against the archetypes at hand, those made of earlier
overrides among them. At an unknown base it stops. -/
def resolveEach (archetypes : OrderedMap String Archetype) :
    List (String × ArchetypeOverride) → Except CatalogError Unit × OrderedMap String Archetype
  | [] => (.ok (), archetypes)
  | (name, o) :: rest =>
    match archetypes.get? o.base with
    | none => (.error (.unknownBaseArchetype name o.base), archetypes)
    | some base => resolveEach (archetypes.insert name (o.apply base)) rest

/-- Makes archetypes of all overrides, in the order of their names. No override waits afterwards,
also if one of them could not be resolved. -/
def resolveOverrides (c : Catalog) : Except CatalogError Unit × Catalog :=
  let (result, archetypes) := resolveEach c.archetypes c.overrides.entries
  (result, { c with archetypes, overrides := {} })

/-! ### Looking up -/

/-- The policy definition of a name and a version, or its highest version. -/
def policyDefinition? (c : Catalog) (name : String) (version : Option String) :
    Option PolicyDefinition :=
  (c.policyDefinitions.get? name).bind (·.find? version)

/-- The policy set definition of a name and a version, or its highest version. -/
def policySetDefinition? (c : Catalog) (name : String) (version : Option String) :
    Option PolicySetDefinition :=
  (c.policySetDefinitions.get? name).bind (·.find? version)

end Catalog

end Governance
