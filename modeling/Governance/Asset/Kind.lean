/-!
# Kinds of assets

A catalog holds policy assets, role definitions and the building blocks of hierarchies. Messages and
file names tell the kinds apart by fixed words.
-/

set_option autoImplicit false

namespace Governance

/-- What a catalog holds. -/
inductive AssetKind where
  | policyDefinition
  | policySetDefinition
  | policyAssignment
  | roleDefinition
  | archetype
  | archetypeOverride
  | architecture
  | defaultValues
  deriving DecidableEq

namespace AssetKind

/-- How messages name a kind. -/
def text : AssetKind → String
  | .policyDefinition => "policy definition"
  | .policySetDefinition => "policy set definition"
  | .policyAssignment => "policy assignment"
  | .roleDefinition => "role definition"
  | .archetype => "archetype"
  | .archetypeOverride => "archetype override"
  | .architecture => "architecture"
  | .defaultValues => "default value"

/-- The key of a kind, one word. -/
def key : AssetKind → String
  | .policyDefinition => "policy_definition"
  | .policySetDefinition => "policy_set_definition"
  | .policyAssignment => "policy_assignment"
  | .roleDefinition => "role_definition"
  | .archetype => "archetype"
  | .archetypeOverride => "archetype_override"
  | .architecture => "architecture"
  | .defaultValues => "default_values"

/-- All kinds. -/
def all : List AssetKind :=
  [.policyDefinition, .policySetDefinition, .policyAssignment, .roleDefinition, .archetype,
   .archetypeOverride, .architecture, .defaultValues]

/-- The kind with a key. -/
def ofKey? (key : String) : Option AssetKind := all.find? fun kind => kind.key == key

/-- Each kind is found under its own key. -/
theorem ofKey?_key (kind : AssetKind) : ofKey? kind.key = some kind := by
  cases kind <;> decide

end AssetKind

end Governance
