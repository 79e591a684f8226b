import Governance.Text.Ascii
import Governance.Text.Blank

/-!
# Short names of regions

Names of resources hold the region in a short form. A region is found by its name or its display
name: blanks and ASCII case do not count.

* `Region.shortNames_ascending`: the table ascends by name, so no region stands in it twice.
-/

set_option autoImplicit false

namespace Governance.Region

/-- The regions with their short names. -/
def shortNames : List (String × String) := [
  ("australiacentral", "acl"),
  ("australiaeast", "ae"),
  ("australiasoutheast", "ase"),
  ("brazilsouth", "brs"),
  ("canadacentral", "cnc"),
  ("canadaeast", "cne"),
  ("centralindia", "inc"),
  ("centralus", "cus"),
  ("eastasia", "ea"),
  ("eastus", "eus"),
  ("eastus2", "eus2"),
  ("francecentral", "frc"),
  ("germanywestcentral", "gwc"),
  ("italynorth", "itn"),
  ("japaneast", "jpe"),
  ("japanwest", "jpw"),
  ("koreacentral", "krc"),
  ("northcentralus", "ncus"),
  ("northeurope", "ne"),
  ("norwayeast", "nwe"),
  ("polandcentral", "plc"),
  ("southafricanorth", "san"),
  ("southcentralus", "scus"),
  ("southeastasia", "sea"),
  ("southindia", "ins"),
  ("swedencentral", "sdc"),
  ("switzerlandnorth", "szn"),
  ("uaenorth", "uan"),
  ("uksouth", "uks"),
  ("ukwest", "ukw"),
  ("westcentralus", "wcus"),
  ("westeurope", "we"),
  ("westus", "wus"),
  ("westus2", "wus2"),
  ("westus3", "wus3")]

/-- The name of a region without blanks and ASCII capitals. -/
def normalize (region : String) : String :=
  String.ofList ((region.toList.filter fun c => !Text.isBlank c).map Char.toLower)

/-- The short name of a region. -/
def shortName? (region : String) : Option String := shortNames.lookup (normalize region)

/-- The table ascends by name, so no name stands in it twice. -/
theorem shortNames_ascending : (shortNames.map Prod.fst).Pairwise (· < ·) := by
  decide

end Governance.Region
