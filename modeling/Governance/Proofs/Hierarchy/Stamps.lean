import Governance.Proofs.Catalog.Answers
import Governance.Proofs.Hierarchy.Copies
import Governance.Proofs.Hierarchy.Export
import Governance.Proofs.Hierarchy.Pointing
import Governance.Proofs.ResourceId.Template

/-!
# `Governance.Proofs.Hierarchy.Stamps`: no two copies have one identifier

A copy of an asset is stamped with the identifier that the template of its kind writes for the group
and the name (`IsDeployed.stamp_eq`). Later calls keep it: no edit touches an identifier. A written
identifier tells the template, the group and the name again (`ResourceId.Template.eq_of_write`), so
copies that differ in one of them have different identifiers. The identifier of a group is written
by a template of its own.

Role definitions are the exception. Their copies are stamped with the name that the copy has and not
with that under which it is kept. These are the same for a catalog (`Catalog.named_after`), unless
each copy gets a name of its own. Then the name is a digest of the group and the asset. It has no
slash (`Digest.isSegment_nameUuid`), and the digest has to tell apart the texts of the hierarchy at
hand (`StampHypotheses.digest`). That it tells apart all texts is not asked, since no digest does.

* `History.stamps_apart`: after every run of calls over a catalog, each copy on a group that was
  added with success has an identifier that no other copy and no group has.
-/

set_option autoImplicit false

namespace Governance

open ResourceId

variable {σ : Type} {src : AssetSource σ} {c : Catalog}

/-! ### Names -/

namespace Digest

/-- No digit of a byte is a slash. -/
theorem slash_notMem_hexByte (b : UInt8) : '/' ∉ hexByte b := by
  have hdigit : ∀ n, '/' ≠ "0123456789abcdef".toList.getD n '0' := by
    intro n heq
    have hmem : '/' ∈ '0' :: "0123456789abcdef".toList := by
      rw [heq, List.getD_eq_getElem?_getD]
      cases hn : "0123456789abcdef".toList[n]? with
      | none => exact List.mem_cons_self
      | some c => exact List.mem_cons_of_mem _ (List.mem_of_getElem? hn)
    exact absurd hmem (by decide)
  simp only [hexByte, List.mem_cons, List.not_mem_nil, or_false, not_or]
  exact ⟨hdigit _, hdigit _⟩

/-- A name that was made by the digest can stand in an identifier. -/
theorem isSegment_nameUuid (s : String) : IsSegment (nameUuid s) := by
  constructor
  · intro h
    have hlist := congrArg String.toList h
    simp [nameUuid, hyphenated] at hlist
  · rw [nameUuid, String.toList_ofList]
    simp [hyphenated, slash_notMem_hexByte]

end Digest

/-- In a catalog that was put together by calls, a role definition is kept under its name. -/
theorem Catalog.named_after {additions : List Catalog.Call} {name : String} {r : RoleDefinition}
    (h : (Catalog.empty.after additions).roleDefinitions.get? name = some r) : r.name = name := by
  have hplace := at?_roleDefinition.mpr h
  have hempty : Catalog.empty.at? (.roleDefinition name) = none := rfl
  have hslot : ∀ other, Slot.roleDefinition name ≠ .archetype other := fun _ => nofun
  -- The place is filled by the first addition to it, and an addition takes the place of its name.
  rw [at?_after hslot, hempty, Option.none_or] at hplace
  simpa [Addition.slot] using List.find?_some hplace

/-! ### Copies and their identifiers -/

/-- The template of the identifiers of copies of a kind. -/
def AssetKind.template : AssetKind → Template
  | .policyDefinition => .policyDefinition
  | .policySetDefinition => .policySetDefinition
  | .policyAssignment => .policyAssignment
  | .roleDefinition => .roleDefinition
  | _ => .managementGroup

/-- The identifier that a group has given to a copy. -/
def Group.stamp? (g : Group) : AssetKind → String → Option String
  | .policyDefinition, name => (g.policyDefinitions.get? name).bind (·.id)
  | .policySetDefinition, name => (g.policySetDefinitions.get? name).bind (·.id)
  | .policyAssignment, name => (g.policyAssignments.get? name).bind (·.id)
  | .roleDefinition, name => (g.roleDefinitions.get? name).bind (·.id)
  | _, _ => none

/-- The identifier of a copy, which is given by group, kind and name. -/
def Hierarchy.stamp? (h : Hierarchy) (copy : String × AssetKind × String) : Option String :=
  (h.groups.get? copy.1).bind fun g => g.stamp? copy.2.1 copy.2.2

/-- The name that stands in the identifier of a copy. -/
def Hierarchy.stampName (h : Hierarchy) (copy : String × AssetKind × String) : String :=
  if h.uniqueRoles = true ∧ copy.2.1 = .roleDefinition then uniqueRoleName copy.1 copy.2.2
  else copy.2.2

/-- The copies on the groups that were added with success, by group, kind and name. -/
def History.copies (t : History) : List (String × AssetKind × String) :=
  t.hierarchy.inventory.filter fun copy => t.added.contains copy.1

/-- A copy is in the inventory if its group is registered and has its name among those of its kind.
-/
theorem Hierarchy.mem_inventory {h : Hierarchy} {copy : String × AssetKind × String} :
    copy ∈ h.inventory ↔ ∃ g, h.groups.get? copy.1 = some g ∧ copy.2.1 ∈ AssetKind.copied ∧
      copy.2.2 ∈ g.names copy.2.1 := by
  obtain ⟨id, kind, name⟩ := copy
  constructor
  · intro hcopy
    -- The inventory goes over the groups, at a group over the kinds, and in a kind over the names.
    obtain ⟨⟨id', g⟩, hentry, hmem⟩ := List.mem_flatMap.mp hcopy
    obtain ⟨_, hpair, heq⟩ := List.mem_map.mp hmem
    obtain ⟨kind', hkind, hmem⟩ := List.mem_flatMap.mp hpair
    obtain ⟨name', hname, rfl⟩ := List.mem_map.mp hmem
    cases heq
    exact ⟨g, OrderedMap.get?_eq_some_iff.mpr hentry, hkind, hname⟩
  · rintro ⟨g, hg, hkind, hname⟩
    have hpair : (kind, name) ∈ g.inventory :=
      List.mem_flatMap.mpr ⟨kind, hkind, List.mem_map_of_mem hname⟩
    exact List.mem_flatMap.mpr ⟨(id, g), OrderedMap.get?_eq_some_iff.mp hg,
      List.mem_map_of_mem hpair⟩

/-- No copy has the identifier of a group. -/
theorem AssetKind.template_ne_managementGroup {kind : AssetKind} (h : kind ∈ copied) :
    kind.template ≠ .managementGroup := by
  revert h
  cases kind <;> decide

/-- The four kinds of copies have four templates. -/
theorem AssetKind.eq_of_template {kind kind' : AssetKind} (h : kind ∈ copied) (h' : kind' ∈ copied)
    (heq : kind.template = kind'.template) : kind = kind' := by
  revert h h' heq
  cases kind <;> cases kind' <;> decide

/-- A deployed assignment has the identifier of its group and its name. -/
theorem PolicyAssignment.deployed_id (owner? : ReferencedDefinition → Option String) (g : Group)
    (name : String) (a : PolicyAssignment) :
    (a.deployed owner? g name).id = some (ResourceId.policyAssignment g.id name) := by
  unfold deployed
  split <;> rfl

namespace IsDeployed

variable {h : Hierarchy} {id name : String} {g : Group}

/-- A copy of a policy definition has the identifier of its group and its name. -/
theorem policyDefinition_id (hd : IsDeployed src h id) (hg : h.groups.get? id = some g)
    {p : PolicyDefinition} (hp : g.policyDefinitions.get? name = some p) :
    p.id = some (ResourceId.policyDefinition id name) := by
  obtain ⟨req, level, copies, rfl, -, -, g', hg', heq⟩ := hd
  obtain rfl : g = g' := Option.some.inj (hg.symm.trans hg')
  have hdefinitions : g.policyDefinitions =
      copies.policyDefinitions.map (Deployment.definition req.id) :=
    congrArg AssetCopies.policyDefinitions heq
  rw [hdefinitions, OrderedMap.get?_map] at hp
  obtain ⟨p₀, -, rfl⟩ := Option.map_eq_some_iff.mp hp
  rfl

/-- Edits keep the identifier of an assignment, which is in its frame. -/
theorem policyAssignment_id (hd : IsDeployed src h id) (hg : h.groups.get? id = some g)
    {a : PolicyAssignment} (ha : g.policyAssignments.get? name = some a) :
    a.id = some (ResourceId.policyAssignment id name) := by
  obtain ⟨a₀, -, g₀, -, -, -, rfl, hframe⟩ := hd.exists_deployed_assignment hg ha
  have hid := congrArg PolicyAssignment.id hframe
  exact hid.trans (PolicyAssignment.deployed_id _ _ _ _)

/-- A copy of a role definition is stamped with its own name. -/
theorem roleDefinition_id (hd : IsDeployed src h id) (hsrc : src.AnswersAs c)
    (hc : ∀ {name r}, c.roleDefinitions.get? name = some r → r.name = name)
    (hg : h.groups.get? id = some g) {r : RoleDefinition}
    (hr : g.roleDefinitions.get? name = some r) :
    r.id = some (ResourceId.roleDefinition id (h.stampName (id, .roleDefinition, name))) := by
  obtain ⟨r₀, hanswer, rfl⟩ := hd.exists_roleDefinition hg hr
  have hname : r₀.name = name := hc (hanswer.eq_some (hsrc.roleDefinition name))
  -- The digest takes the name of the definition, and `stampName` that under which it is kept.
  cases hunique : h.uniqueRoles with
  | true => simp [Hierarchy.stampName, hunique, RoleDefinition.deployed, Deployment.role,
      Deployment.uniqueRole]
  | false => simp [Hierarchy.stampName, hunique, RoleDefinition.deployed, Deployment.role, hname]

/-- A copy on a deployed group has the identifier that the template of its kind writes. -/
theorem stamp_eq (hd : IsDeployed src h id) (hsrc : src.AnswersAs c)
    (hc : ∀ {name r}, c.roleDefinitions.get? name = some r → r.name = name) {kind : AssetKind}
    (hcopy : (id, kind, name) ∈ h.inventory) :
    h.stamp? (id, kind, name) = some (kind.template.write id (h.stampName (id, kind, name))) := by
  obtain ⟨g, hg, hkind, hname⟩ := Hierarchy.mem_inventory.mp hcopy
  change h.groups.get? id = some g at hg
  simp only [Hierarchy.stamp?, hg, Option.bind_some]
  -- Behind the look-up of the copy, each kind has its own reason for the identifier.
  cases kind with
  | policyDefinition =>
    obtain ⟨p, hp⟩ := OrderedMap.mem_keys.mp hname
    simp only [Group.stamp?, hp, Option.bind_some, Hierarchy.stampName, reduceCtorEq, and_false,
      if_false]
    exact hd.policyDefinition_id hg hp
  | policySetDefinition =>
    obtain ⟨p, hp⟩ := OrderedMap.mem_keys.mp hname
    obtain ⟨p₀, -, rfl, -⟩ := hd.exists_setDefinition hg hp
    simp [Group.stamp?, hp, Hierarchy.stampName, PolicySetDefinition.deployed, AssetKind.template,
      Template.write]
  | policyAssignment =>
    obtain ⟨a, ha⟩ := OrderedMap.mem_keys.mp hname
    simp only [Group.stamp?, ha, Option.bind_some, Hierarchy.stampName, reduceCtorEq, and_false,
      if_false]
    exact hd.policyAssignment_id hg ha
  | roleDefinition =>
    obtain ⟨r, hr⟩ := OrderedMap.mem_keys.mp hname
    simp only [Group.stamp?, hr, Option.bind_some]
    exact hd.roleDefinition_id hsrc hc hg hr
  | archetype | archetypeOverride | architecture | defaultValues =>
    simp [AssetKind.copied] at hkind

end IsDeployed

namespace History

/-! ### Identifiers that differ -/

/-- What is asked of the names in a history:

- `ids`: the ids of the groups have characters, and no slash;
- `names`: so do the names of the assets that were copied;
- `digest`: where roles get names of their own, the digest tells apart the texts that it is given
  for the copies. -/
structure StampHypotheses (t : History) : Prop where
  ids : ∀ id ∈ t.hierarchy.groups.keys, IsSegment id
  names : ∀ copy ∈ t.copies, IsSegment copy.2.2
  digest : t.hierarchy.uniqueRoles = true → ∀ copy ∈ t.copies, ∀ copy' ∈ t.copies,
    copy.2.1 = .roleDefinition → copy'.2.1 = .roleDefinition →
    uniqueRoleName copy.1 copy.2.2 = uniqueRoleName copy'.1 copy'.2.2 →
    copy.1 ++ copy.2.2 = copy'.1 ++ copy'.2.2

namespace StampHypotheses

variable {t : History} {copy copy' : String × AssetKind × String}

/-- The id of the group of a copy is a segment. -/
theorem isSegment_group (ht : t.StampHypotheses) (h : copy ∈ t.copies) : IsSegment copy.1 := by
  obtain ⟨g, hg, -⟩ := Hierarchy.mem_inventory.mp (List.mem_filter.mp h).1
  exact ht.ids _ (OrderedMap.mem_keys.mpr ⟨g, hg⟩)

/-- The name in the identifier of a copy is a segment. -/
theorem isSegment_stampName (ht : t.StampHypotheses) (h : copy ∈ t.copies) :
    IsSegment (t.hierarchy.stampName copy) := by
  unfold Hierarchy.stampName
  split
  · exact Digest.isSegment_nameUuid _
  · exact ht.names copy h

/-- On one group, the name in the identifier tells the copies of a kind apart. -/
theorem name_inj (ht : t.StampHypotheses) {id name name' : String} {kind : AssetKind}
    (h : (id, kind, name) ∈ t.copies) (h' : (id, kind, name') ∈ t.copies)
    (heq : t.hierarchy.stampName (id, kind, name) = t.hierarchy.stampName (id, kind, name')) :
    name = name' := by
  unfold Hierarchy.stampName at heq
  -- Only for roles with names of their own is the name not the one that they are kept under.
  by_cases hunique : t.hierarchy.uniqueRoles = true ∧ kind = .roleDefinition
  · rw [if_pos hunique, if_pos hunique] at heq
    -- The texts of the digest begin with the same group.
    have htexts := ht.digest hunique.1 _ h _ h' hunique.2 hunique.2 heq
    exact String.append_right_inj id |>.mp htexts
  · rwa [if_neg hunique, if_neg hunique] at heq

/-- Written identifiers of two copies are the same for one copy only. -/
theorem eq_of_write (ht : t.StampHypotheses) (h : copy ∈ t.copies) (h' : copy' ∈ t.copies)
    (heq : copy.2.1.template.write copy.1 (t.hierarchy.stampName copy) =
      copy'.2.1.template.write copy'.1 (t.hierarchy.stampName copy')) : copy = copy' := by
  obtain ⟨-, -, hkind, -⟩ := Hierarchy.mem_inventory.mp (List.mem_filter.mp h).1
  obtain ⟨-, -, hkind', -⟩ := Hierarchy.mem_inventory.mp (List.mem_filter.mp h').1
  obtain ⟨htemplate, hid, hname⟩ := Template.eq_of_write (ht.isSegment_group h)
    (ht.isSegment_group h') (ht.isSegment_stampName h) (ht.isSegment_stampName h') heq
  rw [Template.named_eq_name (AssetKind.template_ne_managementGroup hkind),
    Template.named_eq_name (AssetKind.template_ne_managementGroup hkind')] at hname
  -- One template writes for one kind, so it is left to compare the names.
  obtain ⟨id, kind, name⟩ := copy
  obtain ⟨id', kind', name'⟩ := copy'
  obtain rfl : kind = kind' := AssetKind.eq_of_template hkind hkind' htemplate
  obtain rfl : id = id' := hid
  obtain rfl : name = name' := ht.name_inj h h' hname
  rfl

/-- The identifier of a copy is not that of a group. -/
theorem write_ne_resourceId (ht : t.StampHypotheses) (h : copy ∈ t.copies) {g : Group}
    (hg : IsSegment g.id) :
    copy.2.1.template.write copy.1 (t.hierarchy.stampName copy) ≠ g.resourceId := by
  intro heq
  obtain ⟨-, -, hkind, -⟩ := Hierarchy.mem_inventory.mp (List.mem_filter.mp h).1
  -- The template of groups does not write a name, so any segment may stand for it.
  have hwrite : copy.2.1.template.write copy.1 (t.hierarchy.stampName copy) =
      Template.managementGroup.write g.id g.id := heq
  obtain ⟨htemplate, -⟩ := Template.eq_of_write (ht.isSegment_group h) hg
    (ht.isSegment_stampName h) hg hwrite
  exact AssetKind.template_ne_managementGroup hkind htemplate

end StampHypotheses

/-- Take a catalog that was put together by calls, and a run of calls over it. Each copy of an asset
on a group that was added with success has an identifier. No other copy has it, on whatever group
and of whatever kind, and no group has it. -/
theorem stamps_apart {additions : List Catalog.Call}
    (hsrc : src.AnswersAs (Catalog.empty.after additions)) (uniqueRoles : Bool)
    (calls : List (σ × Call)) (ht : (after src uniqueRoles calls).StampHypotheses) :
    ∀ copy ∈ (after src uniqueRoles calls).copies, ∃ stamp,
      (after src uniqueRoles calls).hierarchy.stamp? copy = some stamp ∧
      (∀ copy' ∈ (after src uniqueRoles calls).copies,
        (after src uniqueRoles calls).hierarchy.stamp? copy' = some stamp → copy' = copy) ∧
      ∀ g ∈ (after src uniqueRoles calls).hierarchy.groups.values, g.resourceId ≠ stamp := by
  -- Each copy has the identifier that was written when its group was added.
  have hstamp : ∀ copy ∈ (after src uniqueRoles calls).copies,
      (after src uniqueRoles calls).hierarchy.stamp? copy = some (copy.2.1.template.write copy.1
        ((after src uniqueRoles calls).hierarchy.stampName copy)) := by
    intro copy hcopy
    obtain ⟨hinventory, hadded⟩ := List.mem_filter.mp hcopy
    have hdeployed := isDeployed_after uniqueRoles calls (List.contains_iff_mem.mp hadded)
    exact hdeployed.stamp_eq hsrc Catalog.named_after hinventory
  intro copy hcopy
  refine ⟨_, hstamp copy hcopy, fun copy' hcopy' heq => ?_, fun g hg => ?_⟩
  · rw [hstamp copy' hcopy', Option.some.injEq] at heq
    exact ht.eq_of_write hcopy' hcopy heq
  · obtain ⟨id, hid⟩ := OrderedMap.mem_values.mp hg
    have hgid : g.id = id := (linked_after src uniqueRoles calls).id_eq hid
    refine (ht.write_ne_resourceId hcopy ?_).symm
    exact hgid ▸ ht.ids id (OrderedMap.mem_keys.mpr ⟨g, hid⟩)

end History

namespace Sample

/-- Calls that add an asset of each kind, and an archetype that lists them all. -/
def fourKinds : List Catalog.Call :=
  [.add (.policyDefinition audit), .add (.policySetDefinition suite),
    .add (.policyAssignment assignment), .add (.roleDefinition (role "Operators")),
    .add (.archetype ⟨"all", .ofList ["audit"], .ofList ["suite"], .ofList ["assign-audit"],
      .ofList ["role"]⟩)]

/-- A root and a group below it, whose ids are words of the templates, each with all assets. -/
def keywordGroups : History :=
  .after (Catalog.empty.after fourKinds).source true
    [(false, .add ⟨"providers", "Root", .external "tenant", "westeurope", false, ["all"]⟩),
      (false, .add ⟨"policyDefinitions", "Below", .group "providers", "westeurope", false,
        ["all"]⟩)]

end Sample

namespace History

/-- The eight copies on two groups have identifiers of their own. -/
theorem stamps_apart_keywordGroups :
    (Catalog.empty.after Sample.fourKinds).source.AnswersAs
      (Catalog.empty.after Sample.fourKinds) ∧
    Sample.keywordGroups.StampHypotheses ∧ Sample.keywordGroups.copies.length = 8 ∧
    ∀ copy ∈ Sample.keywordGroups.copies, ∃ stamp,
      Sample.keywordGroups.hierarchy.stamp? copy = some stamp ∧
      (∀ copy' ∈ Sample.keywordGroups.copies,
        Sample.keywordGroups.hierarchy.stamp? copy' = some stamp → copy' = copy) ∧
      ∀ g ∈ Sample.keywordGroups.hierarchy.groups.values, g.resourceId ≠ stamp := by
  have hsrc := (Catalog.empty.after Sample.fourKinds).source_answersAs
  have hids : Sample.keywordGroups.hierarchy.groups.keys = ["policyDefinitions", "providers"] := by
    decide +kernel
  have hcopies : Sample.keywordGroups.copies =
      ["policyDefinitions", "providers"].flatMap fun id =>
        [(id, .policyDefinition, "audit"), (id, .policySetDefinition, "suite"),
          (id, .policyAssignment, "assign-audit"), (id, .roleDefinition, "role")] := by
    decide +kernel
  -- Besides the eight copies, the hypotheses are about the ids and names that are there.
  have hnames : Sample.keywordGroups.StampHypotheses := by
    constructor
    · rw [hids]
      decide
    · rw [hcopies]
      decide
    · rw [hcopies]
      decide +kernel
  exact ⟨hsrc, hnames, by rw [hcopies]; rfl, stamps_apart hsrc true _ hnames⟩

end History

end Governance
