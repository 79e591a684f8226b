import Governance.Catalog.Basic

/-!
# Catalog entries

An entry is what one file of a library adds to a catalog. The rows of an architecture are checked
when it is added; the defaults of a file are added one after another until one of them fails.
-/

set_option autoImplicit false

namespace Governance

/-- What one file of a library adds to a catalog. -/
inductive CatalogEntry where
  | policyDefinition (p : PolicyDefinition)
  | policySetDefinition (p : PolicySetDefinition)
  | policyAssignment (a : PolicyAssignment)
  | roleDefinition (r : RoleDefinition)
  | archetype (a : Archetype)
  | archetypeOverride (o : ArchetypeOverride)
  | architecture (a : ArchitectureDefinition)
  | defaultValues (f : DefaultValueFile)

namespace CatalogEntry

/-- Reads an entry of a kind. -/
def decode {δ : Type} [Json.Source δ] (kind : AssetKind) (d : δ) : Option CatalogEntry :=
  match kind with
  | .policyDefinition => (PolicyDefinition.decode d).map .policyDefinition
  | .policySetDefinition => (PolicySetDefinition.decode d).map .policySetDefinition
  | .policyAssignment => (PolicyAssignment.decode d).map .policyAssignment
  | .roleDefinition => (RoleDefinition.decode d).map .roleDefinition
  | .archetype => (Archetype.decode d).map .archetype
  | .archetypeOverride => (ArchetypeOverride.decode d).map .archetypeOverride
  | .architecture => (ArchitectureDefinition.decode d).map .architecture
  | .defaultValues => (DefaultValueFile.decode d).map .defaultValues

/-- Writes an entry. -/
def encode : CatalogEntry → Json
  | .policyDefinition p => p.encode
  | .policySetDefinition p => p.encode
  | .policyAssignment a => a.encode
  | .roleDefinition r => r.encode
  | .archetype a => a.encode
  | .archetypeOverride o => o.encode
  | .architecture a => a.encode
  | .defaultValues f => f.encode

end CatalogEntry

namespace Catalog

/-- The outcome of an addition that changes nothing where it fails. -/
def orUnchanged (c : Catalog) : Except CatalogError Catalog → Except CatalogError Unit × Catalog
  | .ok c' => (.ok (), c')
  | .error e => (.error e, c)

/-- Adds defaults one after another until one of them fails. -/
def addDefaults (c : Catalog) : List DefaultMapping → Except CatalogError Unit × Catalog
  | [] => (.ok (), c)
  | d :: rest =>
    match c.addDefault d with
    | .ok c' => addDefaults c' rest
    | .error e => (.error e, c)

/-- Adds an entry. -/
def add (c : Catalog) : CatalogEntry → Except CatalogError Unit × Catalog
  | .policyDefinition p => c.orUnchanged (c.addPolicyDefinition p)
  | .policySetDefinition p => c.orUnchanged (c.addPolicySetDefinition p)
  | .policyAssignment a => c.orUnchanged (c.addPolicyAssignment a)
  | .roleDefinition r => c.orUnchanged (c.addRoleDefinition r)
  | .archetype a => c.orUnchanged (c.addArchetype a)
  | .archetypeOverride o => c.orUnchanged (c.addOverride o)
  | .architecture a =>
    match a.tree with
    | .ok tree => c.orUnchanged (c.addArchitecture tree)
    | .error e => (.error (.architecture e), c)
  | .defaultValues f => c.addDefaults f.mappings

end Catalog

end Governance
