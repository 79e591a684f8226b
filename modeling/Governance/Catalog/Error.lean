import Governance.Asset.Architecture
import Governance.Asset.Kind

/-!
# Errors of catalogs
-/

set_option autoImplicit false

namespace Governance

/-- Why a catalog refuses an asset or has no answer. -/
inductive CatalogError where
  | duplicate (kind : AssetKind) (name : String)
  | unknownBaseArchetype (name base : String)
  | architecture (e : ArchitectureError)
  | unavailable (what : String)
  deriving DecidableEq

/-- The message of an error. -/
def CatalogError.message : CatalogError → String
  | .duplicate kind name => s!"{kind.text} `{name}` already exists in the catalog"
  | .unknownBaseArchetype name base =>
    s!"archetype override `{name}` names unknown base archetype `{base}`"
  | .architecture e => e.message
  | .unavailable what => s!"catalog unavailable: {what}"

end Governance
