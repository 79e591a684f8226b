import Governance.Hierarchy.Export
import Governance.Proofs.Files.Place
import Governance.Proofs.Hierarchy.History
import Mathlib.Data.List.Nodup

/-!
# `Governance.Proofs.Hierarchy.Export`: the files of an export

An export writes one path for each copy of each group (`Hierarchy.inventory`, `written_steps`), so
there are as many paths as copies.

A path is made of the id of the group and of the name of the asset, and nothing checks these. If
each part of an id leads down to a name, and no name of an asset has a slash, then a path ends at
the place of the export with the parts of the id and the file name added (`resolve_filePath`). These
tell the group, the kind and the name (`place_injective`). So no two paths meet, and all of them are
below the place of the export (`Hierarchy.exportTo_apart`).

Without this proviso they may meet, and they may be elsewhere (`exportTo_meets_and_leaves`).
-/

set_option autoImplicit false

namespace Governance

/-! ### Copies -/

/-- The names under which a group has copies of a kind. -/
def Group.names (g : Group) : AssetKind → List String
  | .policyDefinition => g.policyDefinitions.keys
  | .policySetDefinition => g.policySetDefinitions.keys
  | .policyAssignment => g.policyAssignments.keys
  | .roleDefinition => g.roleDefinitions.keys
  | _ => []

/-- The kinds of which groups have copies, in the order of an export. -/
def AssetKind.copied : List AssetKind :=
  [.policyDefinition, .policySetDefinition, .policyAssignment, .roleDefinition]

/-- The copies of assets that a group has, by kind and name. -/
def Group.inventory (g : Group) : List (AssetKind × String) :=
  AssetKind.copied.flatMap fun kind => (g.names kind).map (kind, ·)

/-- The copies of all groups, by group, kind and name. -/
def Hierarchy.inventory (h : Hierarchy) : List (String × AssetKind × String) :=
  h.groups.entries.flatMap fun e => e.2.inventory.map (e.1, ·)

/-- How many copies a group has. -/
def Group.copyCount (g : Group) : Nat :=
  g.policyDefinitions.size + g.policySetDefinitions.size + g.policyAssignments.size +
    g.roleDefinitions.size

/-- How many copies the groups have. -/
def Hierarchy.copyCount (h : Hierarchy) : Nat :=
  h.groups.values.foldr (fun g n => g.copyCount + n) 0

/-- There are as many copies in the inventory of a group as it has. -/
theorem Group.length_inventory (g : Group) : g.inventory.length = g.copyCount := by
  simp [inventory, names, AssetKind.copied, copyCount, Nat.add_assoc]

/-- There are as many copies in the inventory as all groups have. -/
theorem Hierarchy.length_inventory (h : Hierarchy) : h.inventory.length = h.copyCount := by
  unfold inventory copyCount OrderedMap.values
  induction h.groups.entries with
  | nil => rfl
  | cons e rest ih =>
    rw [List.flatMap_cons, List.length_append, List.length_map, Group.length_inventory, ih]
    rfl

section Pairs

variable {α β : Type}

/-- Different things stay different beside one and the same thing. -/
theorem nodup_map_pair (a : α) {l : List β} (h : l.Nodup) : (l.map (a, ·)).Nodup :=
  h.map fun _ _ heq => (Prod.mk.inj heq).2

/-- Beside two different things, no pair is the same. -/
theorem disjoint_map_pair {a b : α} (hne : a ≠ b) (l l' : List β) :
    (l.map (a, ·)).Disjoint (l'.map (b, ·)) := by
  intro e he he'
  obtain ⟨_, -, rfl⟩ := List.mem_map.mp he
  obtain ⟨_, -, heq⟩ := List.mem_map.mp he'
  exact hne (Prod.mk.inj heq).1.symm

end Pairs

/-- A copy has a kind and a name of its own within the group. -/
theorem Group.nodup_inventory (g : Group) : g.inventory.Nodup := by
  have hnames : ∀ kind, (g.names kind).Nodup := by
    intro kind
    cases kind with
    | policyDefinition => exact g.policyDefinitions.nodup_keys
    | policySetDefinition => exact g.policySetDefinitions.nodup_keys
    | policyAssignment => exact g.policyAssignments.nodup_keys
    | roleDefinition => exact g.roleDefinitions.nodup_keys
    | _ => exact List.nodup_nil
  have hkinds : AssetKind.copied.Nodup := by decide
  exact List.nodup_flatMap.mpr ⟨fun kind _ => nodup_map_pair kind (hnames kind),
    hkinds.imp fun hne => disjoint_map_pair hne _ _⟩

/-- A copy has a group, a kind and a name of its own. -/
theorem Hierarchy.nodup_inventory (h : Hierarchy) : h.inventory.Nodup := by
  have hids : h.groups.entries.Pairwise fun e e' => e.1 ≠ e'.1 :=
    List.pairwise_map.mp h.groups.nodup_keys
  exact List.nodup_flatMap.mpr ⟨fun e _ => nodup_map_pair e.1 e.2.nodup_inventory,
    hids.imp fun hne => disjoint_map_pair hne _ _⟩

namespace Export

/-! ### Paths -/

/-- The name of the file of an asset. -/
def fileName (kind : AssetKind) (name : String) : String := s!"{name}.{kind.key}.json"

/-- The path of the file of a copy. -/
def filePath (out : String) (copy : String × AssetKind × String) : String :=
  Path.join (Path.join out copy.1) (fileName copy.2.1 copy.2.2)

/-- The steps for the assets of a kind write one file for each name. -/
theorem written_assetSteps {α : Type} (directory : String) (kind : AssetKind) (encode : α → Json)
    (assets : OrderedMap String α) :
    written (assetSteps directory kind encode assets) =
      assets.keys.map fun name => Path.join directory (fileName kind name) := by
  simp [written, assetSteps, OrderedMap.keys, List.filterMap_map, Function.comp_def,
    ExportStep.writes?, fileName]

/-- The steps for a group write one file for each of its copies. -/
theorem written_groupSteps (out id : String) (g : Group) :
    written (groupSteps out id g.view) = g.inventory.map fun copy => filePath out (id, copy) := by
  have happend : ∀ l l', written (l ++ l') = written l ++ written l' := fun _ _ =>
    List.filterMap_append
  change written (_ ++ _ ++ _ ++ _) = _
  simp only [happend, written_assetSteps, Group.inventory, AssetKind.copied, List.flatMap_cons,
    List.flatMap_nil, List.append_nil, List.map_append, List.map_map, List.append_assoc]
  rfl

/-- An export writes one path for each copy. -/
theorem written_steps (out : String) (h : Hierarchy) :
    written (steps out h) = h.inventory.map (filePath out) := by
  simp only [steps, Hierarchy.view, OrderedMap.map, Hierarchy.inventory, written,
    List.filterMap_flatMap, List.flatMap_map, List.map_flatMap, List.map_map]
  exact congrArg (List.flatMap · h.groups.entries) (funext fun e => written_groupSteps out e.1 e.2)

/-! ### Places -/

/-- A file name is the name, the key of the kind and the ending. -/
theorem fileName_eq (kind : AssetKind) (name : String) :
    fileName kind name = name ++ "." ++ (kind.key ++ "." ++ "json") := by
  simp only [fileName, String.append_assoc]
  rfl

/-- The last two parts of a file name between dots are the key and the ending. -/
theorem splitAtChar_fileName (kind : AssetKind) (name : String) :
    Text.splitAtChar '.' (fileName kind name) =
      Text.splitAtChar '.' name ++ [kind.key, "json"] := by
  have hkind : Text.splitAtChar '.' (kind.key ++ "." ++ "json") = [kind.key, "json"] := by
    cases kind <;> decide
  rw [fileName_eq, Text.splitAtChar_append rfl, hkind]

/-- The file name of an asset tells the kind and the name. -/
theorem fileName_inj {kind kind' : AssetKind} {name name' : String}
    (h : fileName kind name = fileName kind' name') : kind = kind' ∧ name = name' := by
  have hcut := congrArg (Text.splitAtChar '.') h
  rw [splitAtChar_fileName, splitAtChar_fileName] at hcut
  -- The last two parts are the key and the ending, and all before them is the name.
  obtain ⟨hname, hkey⟩ := List.append_inj' hcut rfl
  refine ⟨?_, Text.splitAtChar_injective '.' hname⟩
  have hkeys : AssetKind.ofKey? kind.key = AssetKind.ofKey? kind'.key :=
    congrArg AssetKind.ofKey? (List.cons.inj hkey).1
  rw [AssetKind.ofKey?_key, AssetKind.ofKey?_key] at hkeys
  exact Option.some.inj hkeys

/-- A file name made of a name without a slash is one part of a path. -/
theorem parts_fileName (kind : AssetKind) {name : String} (h : '/' ∉ name.toList) :
    Path.parts (fileName kind name) = [fileName kind name] := by
  have hkey : '/' ∉ kind.key.toList := by cases kind <;> decide
  exact Path.parts_of_notMem (by simp [fileName_eq, String.toList_append, h, hkey])

/-- A file name without a slash leads down. -/
theorem descends_fileName (kind : AssetKind) {name : String} (h : '/' ∉ name.toList) :
    Path.Descends (fileName kind name) := by
  intro part hpart
  rw [parts_fileName kind h, List.mem_singleton] at hpart
  -- It ends in a word, so it is none of the names that do not lead down.
  have hlast : (Text.splitAtChar '.' part).getLast? = some "json" := by
    rw [hpart, splitAtChar_fileName]
    simp
  unfold Path.Step.ofPart
  rw [if_neg, if_neg]
  · rintro rfl
    exact absurd hlast (by decide)
  · rintro (rfl | rfl)
    · exact absurd hlast (by decide)
    · exact absurd hlast (by decide)

/-- Where the file of a copy is: below the directory that the id names. -/
theorem resolve_filePath (current : Path.Place) (out : String) {id name : String}
    (kind : AssetKind) (hid : Path.Descends id) (hname : '/' ∉ name.toList) :
    Path.resolve current (filePath out (id, kind, name)) =
      Path.resolve current out ++ (Path.parts id ++ [fileName kind name]) := by
  rw [filePath, Path.resolve_join_of_descends _ _ (descends_fileName kind hname),
    parts_fileName kind hname, Path.resolve_join_of_descends _ _ hid, List.append_assoc]

end Export

/-- Of each copy, the id of the group leads down part by part, and the name has no slash. -/
structure Hierarchy.PlainlyNamed (h : Hierarchy) : Prop where
  ids : ∀ copy ∈ h.inventory, Path.Descends copy.1
  names : ∀ copy ∈ h.inventory, '/' ∉ copy.2.2.toList

namespace Hierarchy

/-- Each copy of a plainly named hierarchy has a place of its own below that of the export. -/
theorem resolve_inventory {h : Hierarchy} (hplain : h.PlainlyNamed) (current : Path.Place)
    (out : String) :
    (h.inventory.map fun copy => Path.resolve current (Export.filePath out copy)) =
      h.inventory.map fun copy =>
        Path.resolve current out ++ (Path.parts copy.1 ++ [Export.fileName copy.2.1 copy.2.2]) := by
  refine List.map_congr_left fun copy hcopy => ?_
  exact Export.resolve_filePath current out copy.2.1 (hplain.ids copy hcopy)
    (hplain.names copy hcopy)

/-- The parts of an id and a file name tell the copy. -/
theorem place_injective (place : Path.Place) : Function.Injective
    fun copy : String × AssetKind × String =>
      place ++ (Path.parts copy.1 ++ [Export.fileName copy.2.1 copy.2.2]) := by
  rintro ⟨id, kind, name⟩ ⟨id', kind', name'⟩ heq
  -- The last name is that of the file, however many parts the ids have.
  obtain ⟨hparts, hfile⟩ := List.append_inj' (List.append_cancel_left heq) rfl
  obtain ⟨rfl, rfl⟩ := Export.fileName_inj (List.singleton_inj.mp hfile)
  obtain rfl := Path.parts_injective hparts
  rfl

/-- An export that succeeds gives a path for each copy of the four kinds.

If the hierarchy is plainly named, no two paths lead to one place, and each of them leads below the
place of the export, for a program that stands anywhere. -/
theorem exportTo_apart (h : Hierarchy) (out : String) (d : Disk) {paths : List String}
    (hok : (h.exportTo out d).1 = .ok paths) :
    paths.length = h.copyCount ∧
    (h.PlainlyNamed →
      (paths.map (Path.resolve d.current)).Nodup ∧
      ∀ path ∈ paths, ∃ below, below ≠ [] ∧
        Path.resolve d.current path = Path.resolve d.current out ++ below) := by
  -- Whether an export succeeds depends on the disk, and what it gives then does not.
  obtain rfl : h.inventory.map (Export.filePath out) = paths := by
    rw [← Export.written_steps]
    simp only [exportTo] at hok
    cases hrun : (Export.performAll d (Export.steps out h)).1 with
    | error e =>
      rw [hrun] at hok
      cases hok
    | ok _ =>
      rw [hrun] at hok
      exact Except.ok.inj hok
  refine ⟨by rw [List.length_map, h.length_inventory], fun hplain => ?_⟩
  have hplaces := resolve_inventory hplain d.current out
  constructor
  · have hnodup := h.nodup_inventory.map (place_injective (Path.resolve d.current out))
    rw [← hplaces] at hnodup
    rwa [List.map_map]
  · intro path hpath
    obtain ⟨copy, hcopy, rfl⟩ := List.mem_map.mp hpath
    refine ⟨_, ?_, List.map_inj_left.mp hplaces copy hcopy⟩
    simp

end Hierarchy

namespace Sample

/-- A program stands in a directory without entries. -/
def blankDisk : Disk := ⟨.directory [("work", .empty)], ["work"]⟩

/-- A root and a group below it, each with the policy definition. -/
def holders (root below : String) : Hierarchy :=
  (History.after catalog.source false [
    (false, .add ⟨root, "Root", .external "tenant", "westeurope", false, ["holder"]⟩),
    (false, .add ⟨below, "Below", .group root, "westeurope", false, ["holder"]⟩)]).hierarchy

end Sample

namespace Hierarchy

/-- The copies of two groups with plain ids get files of their own. -/
theorem exportTo_apart_plain :
    ∃ paths, ((Sample.holders "root" "below").exportTo "out" Sample.blankDisk).1 = .ok paths ∧
      (Sample.holders "root" "below").PlainlyNamed ∧ paths.length = 2 ∧
      (paths.map (Path.resolve ["work"])).Nodup ∧
      ∀ path ∈ paths, ∃ below, below ≠ [] ∧
        Path.resolve ["work"] path = Path.resolve ["work"] "out" ++ below := by
  have hpaths : ((Sample.holders "root" "below").exportTo "out" Sample.blankDisk).1.toOption =
      some ["out/below/audit.policy_definition.json", "out/root/audit.policy_definition.json"] := by
    decide +kernel
  have hok := ok_of_toOption hpaths
  have hplain : (Sample.holders "root" "below").PlainlyNamed :=
    ⟨by decide +kernel, by decide +kernel⟩
  -- The names have no slash and are no dots, so the files are apart.
  obtain ⟨-, hapart⟩ := exportTo_apart _ "out" Sample.blankDisk hok
  obtain ⟨hnodup, hinside⟩ := hapart hplain
  exact ⟨_, hok, hplain, rfl, hnodup, hinside⟩

/-- The ids `r` and `r/` are different, and their copies are written to one file. The id `..` leads
out of the directory of the export. -/
theorem exportTo_meets_and_leaves :
    (∃ path, ((Sample.holders "r" "r/").exportTo "out" Sample.blankDisk).1 = .ok [path, path]) ∧
    ∃ inside outside,
      ((Sample.holders "r" "..").exportTo "out" Sample.blankDisk).1 = .ok [outside, inside] ∧
      ¬ Path.resolve ["work"] "out" <+: Path.resolve ["work"] outside := by
  have hmeets : ((Sample.holders "r" "r/").exportTo "out" Sample.blankDisk).1.toOption =
      some ["out/r/audit.policy_definition.json", "out/r/audit.policy_definition.json"] := by
    decide +kernel
  have hleaves : ((Sample.holders "r" "..").exportTo "out" Sample.blankDisk).1.toOption =
      some ["out/../audit.policy_definition.json", "out/r/audit.policy_definition.json"] := by
    decide +kernel
  exact ⟨⟨_, ok_of_toOption hmeets⟩, _, _, ok_of_toOption hleaves, by decide +kernel⟩

end Hierarchy

end Governance
