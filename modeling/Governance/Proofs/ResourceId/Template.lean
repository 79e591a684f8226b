import Governance.Proofs.ResourceId.Shape

/-!
# `Governance.Proofs.ResourceId.Template`: written identifiers are read back

There are five templates: one writes the identifier of a management group, and four write that of
an asset at a group. `Template.write` is all of them, and `Template.parse_write` reads back what
any of them wrote. The group and the name may be any segments, keywords included: the reader takes
a segment for a keyword only where a key stands, and the templates put ids and names where values
stand.

* `parse_write_and_below`: an identifier written by a template is read with the type of this
  template and of no other, and a resource below any identifier that can be read is read with its
  own type and name. The keyword itself is no type: with it the identifier ends too early.
* `Template.eq_of_write`: two written identifiers are the same only if the templates, the groups
  and the names are.
-/

set_option autoImplicit false

namespace Governance.ResourceId

/-! ### Templates -/

/-- A template of identifiers. -/
inductive Template where
  | managementGroup
  | policyDefinition
  | policySetDefinition
  | policyAssignment
  | roleDefinition
  deriving DecidableEq

namespace Template

/-- The type of the resources of a template. -/
def resourceType : Template → String
  | .managementGroup => ResourceType.managementGroup
  | .policyDefinition => ResourceType.policyDefinition
  | .policySetDefinition => ResourceType.policySetDefinition
  | .policyAssignment => ResourceType.policyAssignment
  | .roleDefinition => ResourceType.roleDefinition

/-- The identifier of a name at a group. A management group has no other name than its id. -/
def write : Template → String → String → String
  | .managementGroup, group, _ => ResourceId.managementGroup group
  | .policyDefinition, group, name => ResourceId.policyDefinition group name
  | .policySetDefinition, group, name => ResourceId.policySetDefinition group name
  | .policyAssignment, group, name => ResourceId.policyAssignment group name
  | .roleDefinition, group, name => ResourceId.roleDefinition group name

/-- The name of the resource that an identifier names. -/
def named : Template → String → String → String
  | .managementGroup, group, _ => group
  | _, _, name => name

/-- The identifier is the one that a template writes, and it names what was written. -/
structure ReadsBack (t : Template) (group name : String) (id : ResourceId) : Prop where
  text : id.text = t.write group name
  resourceType : id.resourceType = t.resourceType
  isType : ∀ t' : Template, id.isType t'.resourceType = true ↔ t' = t
  name : id.name = t.named group name

variable {t t' : Template} {group group' name name' : String}

/-- The identifiers of assets stand below that of the group. -/
theorem write_eq_below (h : t ≠ .managementGroup) (group name : String) :
    t.write group name = below (ResourceId.managementGroup group) t.resourceType name := by
  cases t with
  | managementGroup => exact absurd rfl h
  | policyDefinition | policySetDefinition | policyAssignment | roleDefinition => rfl

/-- Apart from that of a group, an identifier names the asset. -/
theorem named_eq_name (h : t ≠ .managementGroup) (group name : String) :
    t.named group name = name := by
  cases t with
  | managementGroup => exact absurd rfl h
  | policyDefinition | policySetDefinition | policyAssignment | roleDefinition => rfl

/-- A type has two parts, which are segments, and the second one is no keyword. -/
theorem exists_parts (t : Template) : ∃ ns type, t.resourceType = ns ++ "/" ++ type ∧
    IsSegment ns ∧ IsSegment type ∧ isProviders type = false := by
  have hparts : ∀ type, t.resourceType = "Microsoft.Authorization" ++ "/" ++ type →
      IsSegment type → isProviders type = false →
      ∃ ns type, t.resourceType = ns ++ "/" ++ type ∧
        IsSegment ns ∧ IsSegment type ∧ isProviders type = false :=
    fun type heq htype hproviders => ⟨_, type, heq, by decide, htype, hproviders⟩
  -- Four of the five types share the first part.
  cases t with
  | managementGroup =>
    exact ⟨"Microsoft.Management", "managementGroups", by decide, by decide, by decide, by decide⟩
  | policyDefinition => exact hparts "policyDefinitions" (by decide) (by decide) (by decide)
  | policySetDefinition => exact hparts "policySetDefinitions" (by decide) (by decide) (by decide)
  | policyAssignment => exact hparts "policyAssignments" (by decide) (by decide) (by decide)
  | roleDefinition => exact hparts "roleDefinitions" (by decide) (by decide) (by decide)

/-- The types of two templates differ in more than case. -/
theorem alike_resourceType (t t' : Template) :
    Text.equalIgnoringCase t.resourceType t'.resourceType = true ↔ t' = t := by
  constructor
  · intro h
    -- The texts are constants, so each pair of them is compared.
    cases t <;> cases t' <;> first | rfl | exact absurd h (by decide)
  · rintro rfl
    exact Text.equalIgnoringCase_refl _

/-- What a template wrote is read, with the type of the template and the name. -/
theorem parse_write (t : Template) (hgroup : IsSegment group) (hname : IsSegment name) :
    parse (t.write group name) =
      .ok ⟨t.write group name, t.resourceType, t.named group name⟩ := by
  by_cases ht : t = .managementGroup
  · subst ht
    exact parse_managementGroup hgroup
  · obtain ⟨ns, type, heq, hns, htype, hproviders⟩ := t.exists_parts
    rw [write_eq_below ht, named_eq_name ht, heq]
    exact parse_below hns htype hname hproviders (parse_managementGroup hgroup)

/-- What a template writes reads back as its type and its name. -/
theorem readsBack (t : Template) (group name : String) :
    t.ReadsBack group name ⟨t.write group name, t.resourceType, t.named group name⟩ where
  text := rfl
  resourceType := rfl
  isType := alike_resourceType t
  name := rfl

/-- Every written identifier begins with the segments of its group. -/
theorem exists_segments_write (t : Template) (hgroup : IsSegment group) (hname : IsSegment name) :
    ∃ rest, segments? (t.write group name) = some
      ("providers" :: "Microsoft.Management" :: "managementGroups" :: group :: rest) := by
  have hsegments := segments?_managementGroup group
  rw [Text.splitAtChar_of_notMem hgroup.no_slash] at hsegments
  by_cases ht : t = .managementGroup
  · subst ht
    exact ⟨[], hsegments⟩
  · obtain ⟨ns, type, heq, hns, htype, -⟩ := t.exists_parts
    rw [write_eq_below ht, heq, segments?_below hsegments hns htype hname]
    exact ⟨["providers", ns, type, name], rfl⟩

/-- Two written identifiers are the same only for one template, one group and one name. -/
theorem eq_of_write (hgroup : IsSegment group) (hgroup' : IsSegment group')
    (hname : IsSegment name) (hname' : IsSegment name')
    (h : t.write group name = t'.write group' name') :
    t = t' ∧ group = group' ∧ t.named group name = t'.named group' name' := by
  have hread := parse_write t hgroup hname
  rw [h, parse_write t' hgroup' hname', Except.ok.injEq, ResourceId.mk.injEq] at hread
  obtain ⟨-, htype, hnamed⟩ := hread
  have ht : t = t' := by
    refine (alike_resourceType t' t).mp ?_
    rw [htype]
    exact Text.equalIgnoringCase_refl _
  -- The reader forgets the group of an asset, so that is found among the segments.
  obtain ⟨rest, hsegments⟩ := exists_segments_write t hgroup hname
  obtain ⟨rest', hsegments'⟩ := exists_segments_write t' hgroup' hname'
  rw [h, hsegments'] at hsegments
  simp only [Option.some.injEq, List.cons.injEq, true_and] at hsegments
  exact ⟨ht, hsegments.1.symm, hnamed.symm⟩

end Template

/-! ### Blocks below an identifier -/

/-- A block whose type is the keyword has no resource: the keyword opens the next block. -/
theorem readBlock_providers {type : String} (h : isProviders type = true)
    (ns before name : String) : readBlock ns [] before [type, name] = .error .truncated := by
  rw [readBlock, if_pos h]
  rfl

/-- A block whose type is the keyword itself opens another block, which is not complete. -/
theorem parse_below_providers {parent ns type name : String} (hns : IsSegment ns)
    (htype : IsSegment type) (hname : IsSegment name) (hproviders : isProviders type = true)
    {id : ResourceId} (h : parse parent = .ok id) :
    parse (below parent (ns ++ "/" ++ type) name) =
      .error (.truncated (below parent (ns ++ "/" ++ type) name)) := by
  obtain ⟨segments, hsegments, hne, hread, -⟩ := parse_eq_ok.mp h
  have hbelow := segments?_eq_some_iff.mp (segments?_below hsegments hns htype hname)
  -- The segments are all right, so the fault is found while the last block is read.
  have hempty : "" ∉ segments ++ ["providers", ns, type, name] :=
    fun hmem => ne_empty_of_below hns htype hname hne "" hmem rfl
  rw [parse_of_segments hbelow hempty, readPairs_append hread, readBlock_providers hproviders]

/-- Identifiers are read back. What a template writes for a group and a name is read with the type
of this template and of no other, and with the name. Below any identifier that can be read, a
resource is read with its own type and name, unless its type is the keyword. -/
theorem parse_write_and_below :
    (∀ (t : Template) (group name : String), IsSegment group → IsSegment name →
      ∃ id, parse (t.write group name) = .ok id ∧ t.ReadsBack group name id) ∧
    ∀ (parent ns type name : String) (id : ResourceId), parse parent = .ok id →
      IsSegment ns → IsSegment type → IsSegment name →
      (isProviders type = false →
        ∃ id', parse (parent ++ "/providers/" ++ (ns ++ "/" ++ type) ++ "/" ++ name) = .ok id' ∧
          id'.resourceType = ns ++ "/" ++ type ∧ id'.name = name ∧
          id'.text = parent ++ "/providers/" ++ (ns ++ "/" ++ type) ++ "/" ++ name) ∧
      (isProviders type = true →
        parse (parent ++ "/providers/" ++ (ns ++ "/" ++ type) ++ "/" ++ name) =
          .error (.truncated (parent ++ "/providers/" ++ (ns ++ "/" ++ type) ++ "/" ++ name))) := by
  -- What is written is read back. A block behind a text that can be read is read, too.
  constructor
  · intro t group name hgroup hname
    exact ⟨_, t.parse_write hgroup hname, t.readsBack group name⟩
  · intro parent ns type name id h hns htype hname
    constructor
    · intro hproviders
      exact ⟨_, parse_below hns htype hname hproviders h, rfl, rfl, rfl⟩
    · intro hproviders
      exact parse_below_providers hns htype hname hproviders h

/-- A role at a group is read back where both have a keyword for a name, and below a resource group
that is called `providers` a block is read as well. -/
theorem parse_write_and_below_keywords :
    (∃ id, parse (Template.roleDefinition.write "Providers" "subscriptions") = .ok id ∧
      Template.roleDefinition.ReadsBack "Providers" "subscriptions" id) ∧
    (∃ id, parse ("/subscriptions/resourceGroups/resourcegroups/providers" ++ "/providers/" ++
        ("PROVIDERS" ++ "/" ++ "subscriptions") ++ "/" ++ "providers") = .ok id ∧
      id.resourceType = "PROVIDERS" ++ "/" ++ "subscriptions" ∧ id.name = "providers" ∧
      id.text = "/subscriptions/resourceGroups/resourcegroups/providers" ++ "/providers/" ++
        ("PROVIDERS" ++ "/" ++ "subscriptions") ++ "/" ++ "providers") := by
  have hparent : parse "/subscriptions/resourceGroups/resourcegroups/providers" = .ok
      ⟨"/subscriptions/resourceGroups/resourcegroups/providers",
        "Microsoft.Resources/resourceGroups", "providers"⟩ := by rfl
  obtain ⟨hwrite, hbelow⟩ := parse_write_and_below
  exact ⟨hwrite .roleDefinition "Providers" "subscriptions" (by decide) (by decide),
    (hbelow _ "PROVIDERS" "subscriptions" "providers" _ hparent (by decide) (by decide)
      (by decide)).1 (by decide)⟩

end Governance.ResourceId
