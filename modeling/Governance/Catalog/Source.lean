import Governance.Catalog.Basic

/-!
# Sources of assets

A hierarchy asks for assets and does not care where they come from. A source answers look-ups, and
an answer may change the state of the source: that it can be reached, what it answers next, and
whether the caller has asked the work to stop in the meantime.

A catalog is a source that always answers and never stops the work, unless it is watched: then some
assets are out of reach, and asking for others is a signal to stop.
-/

set_option autoImplicit false

namespace Governance

/-- The answer of a source in state `σ`: an error, nothing, or an asset. -/
abbrev LookUp (σ α : Type) := StateM σ (Except CatalogError (Option α))

/-- Where a hierarchy gets its assets from. -/
structure AssetSource (σ : Type) where
  policyDefinition : String → Option String → LookUp σ PolicyDefinition
  policySetDefinition : String → Option String → LookUp σ PolicySetDefinition
  policyAssignment : String → LookUp σ PolicyAssignment
  roleDefinition : String → LookUp σ RoleDefinition
  archetype : String → LookUp σ Archetype
  architecture : String → LookUp σ Architecture
  defaultMapping : String → LookUp σ DefaultMapping
  /-- Whether the caller has asked the work to stop. -/
  stopped : σ → Bool

/-- Assets, by kind and name, whose look-up fails or is a signal to stop. -/
structure Watch where
  unavailable : List String
  stopping : List String

namespace Catalog

/-- A watched look-up. The state is whether the signal to stop was given. -/
def watched {α : Type} (watch : Watch) (kind : AssetKind) (name : String) (found : Option α) :
    LookUp Bool α := fun stopped =>
  let asset := s!"{kind.key}/{name}"
  (if watch.unavailable.contains asset then .error (.unavailable asset) else .ok found,
   stopped || watch.stopping.contains asset)

/-- A watched catalog as a source. -/
def watchedSource (c : Catalog) (watch : Watch) : AssetSource Bool where
  policyDefinition name version :=
    watched watch .policyDefinition name (c.policyDefinition? name version)
  policySetDefinition name version :=
    watched watch .policySetDefinition name (c.policySetDefinition? name version)
  policyAssignment name := watched watch .policyAssignment name (c.policyAssignments.get? name)
  roleDefinition name := watched watch .roleDefinition name (c.roleDefinitions.get? name)
  archetype name := watched watch .archetype name (c.archetypes.get? name)
  architecture name := watched watch .architecture name (c.architectures.get? name)
  defaultMapping name := watched watch .defaultValues name (c.defaults.get? name)
  stopped := id

/-- A catalog as a source. -/
def source (c : Catalog) : AssetSource Bool := c.watchedSource ⟨[], []⟩

end Catalog

end Governance
