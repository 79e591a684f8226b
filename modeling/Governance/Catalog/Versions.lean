import Governance.Version

/-!
# Versions of an asset

The versions of one asset stand with the highest first. A new one comes in front of the first that
it is not below, so the entries stay in order wherever the order of versions is one.
-/

set_option autoImplicit false

namespace Governance

/-- The versions of an asset, the highest first. -/
structure Versions (α : Type) where
  entries : List (Option String × α)

namespace Versions

variable {α : Type}

/-- No version. -/
def empty : Versions α := ⟨[]⟩

/-- Whether a version is there, spelled the same way. -/
def contains (vs : Versions α) (version : Option String) : Bool :=
  vs.entries.any fun e => e.1 == version

/-- Whether a version is below that of an entry. -/
def isBelow (version : Option String) (e : Option String × α) : Bool :=
  Version.compare version e.1 == .lt

/-- Adds an entry in front of the first that it is not below. -/
def insert (vs : Versions α) (version : Option String) (a : α) : Versions α :=
  ⟨vs.entries.takeWhile (isBelow version) ++
    (version, a) :: vs.entries.dropWhile (isBelow version)⟩

/-- The entry of a version, or the highest one. -/
def find? (vs : Versions α) : Option String → Option α
  | some version => (vs.entries.find? fun e => e.1 == some version).map Prod.snd
  | none => vs.entries.head?.map Prod.snd

end Versions

end Governance
