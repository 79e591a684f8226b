import Governance.Proofs.Hierarchy.Owners
import Governance.Proofs.ResourceId

/-!
# `Governance.Proofs.Hierarchy.Naming`: what a pointed reference names

When a group is added, its references are pointed at the groups that hold what they refer to.
The new text is made from the id of such a group, and ids are not checked. Later calls read
the text back.

`History.namesKept_add` compares the two readings, for each reference of a group that was
added with success. A reference that stayed as it was, or that is pointed at a group whose own
identifier can be read, names what it named before. Any other reference cannot be read at all
(`NameKept`). So an id may cost the deployed references their meaning, but no id can turn one
into a reference to something else. `History.names_of_slash` is a group of the first kind.
-/

set_option autoImplicit false

namespace Governance

open ResourceId

variable {σ : Type} {src : AssetSource σ}

/-! ### Identifiers of definitions -/

/-- A reference is an identifier, and its name is the one in it. -/
theorem Reference.parse_of_target {text : String} {t : ReferencedDefinition}
    (h : target text = .ok t) : ∃ id, parse text = .ok id ∧ id.name = t.name := by
  unfold target at h
  cases hparse : parse text with
  | error e => simp [hparse] at h
  | ok id =>
    simp only [hparse] at h
    refine ⟨id, rfl, ?_⟩
    -- The type decides which definition it is. The name is the same for both.
    split at h
    · cases h
      rfl
    · split at h
      · cases h
        rfl
      · simp at h

/-- The name in a reference is a segment. -/
theorem Reference.isSegment_target {text : String} {t : ReferencedDefinition}
    (h : target text = .ok t) : IsSegment t.name := by
  obtain ⟨id, hparse, hname⟩ := parse_of_target h
  exact hname ▸ isSegment_name hparse

namespace ReferencedDefinition

variable {t : ReferencedDefinition} {owner : String}

/-- The type of the resource that a definition is. -/
def resourceType : ReferencedDefinition → String
  | .definition _ => ResourceType.policyDefinition
  | .setDefinition _ => ResourceType.policySetDefinition

/-- The identifier of a definition at a group is that of the group with a block behind it. -/
theorem idAt_eq_below (t : ReferencedDefinition) (owner : String) :
    t.idAt owner = below (managementGroup owner) t.resourceType t.name := by
  cases t <;> rfl

/-- The type has two parts, which are segments. -/
theorem exists_resourceType (t : ReferencedDefinition) : ∃ ns type,
    t.resourceType = ns ++ "/" ++ type ∧ IsSegment ns ∧ IsSegment type ∧
      isProviders type = false := by
  have hdefinition : ResourceType.policyDefinition =
      "Microsoft.Authorization" ++ "/" ++ "policyDefinitions" := by decide
  have hsetDefinition : ResourceType.policySetDefinition =
      "Microsoft.Authorization" ++ "/" ++ "policySetDefinitions" := by decide
  cases t with
  | definition _ => exact ⟨_, _, hdefinition, by decide, by decide, by decide⟩
  | setDefinition _ => exact ⟨_, _, hsetDefinition, by decide, by decide, by decide⟩

/-- At a group with an identifier that can be read, the identifier of a definition can be read
too. -/
theorem parse_idAt (hname : IsSegment t.name) (howner : ReadsGroup owner) :
    parse (t.idAt owner) = .ok ⟨t.idAt owner, t.resourceType, t.name⟩ := by
  obtain ⟨id, hid⟩ := howner
  obtain ⟨ns, type, heq, hns, htype, hproviders⟩ := t.exists_resourceType
  rw [idAt_eq_below, heq]
  exact parse_below hns htype hname hproviders hid

/-- At any other group it cannot be read. -/
theorem readsGroup_of_parse_idAt (hname : IsSegment t.name) {id : ResourceId}
    (h : parse (t.idAt owner) = .ok id) : ReadsGroup owner := by
  obtain ⟨ns, type, heq, hns, htype, -⟩ := t.exists_resourceType
  rw [idAt_eq_below, heq] at h
  exact exists_of_parse_below hns htype hname (segments?_managementGroup owner) h

/-- The identifier of a definition at a group refers to the definition. -/
theorem target_idAt (hname : IsSegment t.name) (howner : ReadsGroup owner) :
    Reference.target (t.idAt owner) = .ok t := by
  rw [Reference.target, parse_idAt hname howner]
  cases t with
  | definition name => exact if_pos (Text.equalIgnoringCase_refl _)
  | setDefinition name =>
    have hkind : ¬ Text.equalIgnoringCase ResourceType.policySetDefinition
        ResourceType.policyDefinition = true := by decide
    exact (if_neg hkind).trans (if_pos (Text.equalIgnoringCase_refl _))

/-- The identifier of a policy definition gives its name. -/
theorem definitionName_idAt {name : String} (hname : IsSegment name)
    (howner : ReadsGroup owner) :
    Reference.definitionName ((definition name).idAt owner) = .ok name := by
  rw [Reference.definitionName, parse_idAt (t := .definition name) hname howner]
  exact if_pos (Text.equalIgnoringCase_refl _)

/-- Two identifiers are the same only for one definition, whatever the groups are. -/
theorem eq_of_idAt {t' : ReferencedDefinition} {owner' : String} (hname : IsSegment t.name)
    (hname' : IsSegment t'.name) (h : t.idAt owner = t'.idAt owner') : t = t' := by
  obtain ⟨ns, type, heq, hns, htype, -⟩ := t.exists_resourceType
  obtain ⟨ns', type', heq', hns', htype', -⟩ := t'.exists_resourceType
  have hsegments := congrArg segments? h
  rw [idAt_eq_below, idAt_eq_below, heq, heq',
    segments?_below (segments?_managementGroup owner) hns htype hname,
    segments?_below (segments?_managementGroup owner') hns' htype' hname',
    Option.some.injEq] at hsegments
  -- The last four segments are the type and the name.
  have hlast := List.append_inj_right' hsegments rfl
  simp only [List.cons.injEq, and_true, true_and] at hlast
  obtain ⟨rfl, rfl, hnames⟩ := hlast
  have htypes : t.resourceType = t'.resourceType := heq.trans heq'.symm
  have hkinds : ResourceType.policyDefinition ≠ ResourceType.policySetDefinition := by decide
  cases t with
  | definition name =>
    cases t' with
    | definition name' => exact congrArg definition hnames
    | setDefinition name' => exact absurd htypes hkinds
  | setDefinition name =>
    cases t' with
    | definition name' => exact absurd htypes.symm hkinds
    | setDefinition name' => exact congrArg setDefinition hnames

/-- A reference that is, pointed or not, the identifier of a definition refers to it. -/
theorem eq_of_pointer {t' : ReferencedDefinition} {owner? : Option String} {text : String}
    (h : Reference.target text = .ok t) (hname : IsSegment t'.name)
    (heq : t.pointer owner? text = t'.idAt owner) : t = t' := by
  cases owner? with
  | some owner' => exact eq_of_idAt (Reference.isSegment_target h) hname heq
  | none =>
    -- The text of the source can be read, so the group in it is one that can be read.
    have htext : text = t'.idAt owner := heq
    obtain ⟨id, hparse, -⟩ := Reference.parse_of_target h
    rw [htext] at h hparse
    have hread := target_idAt hname (readsGroup_of_parse_idAt hname hparse)
    exact Except.ok.inj (h.symm.trans hread)

end ReferencedDefinition

/-! ### One reference -/

/-- What the copy of a reference names, next to what the original names. They agree just when
the copy is pointed at no group, or at one whose identifier can be read. Otherwise the copy
names nothing. -/
structure NameKept {α : Type} (owner? : Option String) (original copy : Except ReferenceError α) :
    Prop where
  eq_iff : copy = original ↔ ∀ owner, owner? = some owner → ReadsGroup owner
  eq_or_error : copy = original ∨ ∃ e, copy = .error e

/-- A way to read references keeps names, when it fails on texts that are no identifiers, and
finds in the others what was put there. -/
theorem NameKept.pointer {α : Type} {read : String → Except ReferenceError α} {x : α}
    {t : ReferencedDefinition} {text : String} (owner? : Option String)
    (hname : IsSegment t.name) (hread : read text = .ok x)
    (hreads : ∀ owner, ReadsGroup owner → read (t.idAt owner) = .ok x)
    (herror : ∀ s e, parse s = .error e → read s = .error (.resourceId e)) :
    NameKept owner? (read text) (read (t.pointer owner? text)) := by
  cases owner? with
  | none =>
    -- The text is the one of the source.
    have hcopy : read (t.pointer none text) = read text := rfl
    exact ⟨by simp [hcopy], Or.inl hcopy⟩
  | some owner =>
    have hcopy : read (t.pointer (some owner) text) = read (t.idAt owner) := rfl
    rw [hcopy, hread]
    by_cases howner : ReadsGroup owner
    · exact ⟨by simp [hreads owner howner, howner], Or.inl (hreads owner howner)⟩
    · cases hparse : parse (t.idAt owner) with
      | ok id => exact absurd (t.readsGroup_of_parse_idAt hname hparse) howner
      | error e =>
        have he := herror _ e hparse
        exact ⟨by simp [he, howner], Or.inr ⟨_, he⟩⟩

/-- The target of a reference is kept where the reference is pointed anew. -/
theorem NameKept.target {text : String} {t : ReferencedDefinition} (owner? : Option String)
    (h : Reference.target text = .ok t) :
    NameKept owner? (Reference.target text) (Reference.target (t.pointer owner? text)) :=
  have hname := Reference.isSegment_target h
  .pointer owner? hname h (fun _ => t.target_idAt hname) fun s e he => by
    rw [Reference.target, he]

/-- The name of a definition is kept where the reference is pointed anew. -/
theorem NameKept.definitionName {text name : String} (owner? : Option String)
    (h : Reference.definitionName text = .ok name) :
    NameKept owner? (Reference.definitionName text)
      (Reference.definitionName ((ReferencedDefinition.definition name).pointer owner? text)) :=
  have hname : IsSegment name := Reference.isSegment_target (Reference.target_of_definitionName h)
  .pointer owner? hname h (fun _ => ReferencedDefinition.definitionName_idAt hname)
    fun s e he => by rw [Reference.definitionName, he]

/-! ### One group -/

/-- What the references of a group name, next to those of the answers that its copies were made
of. -/
structure Group.NamesKept (src : AssetSource σ) (r : Registry) (g : Group) : Prop where
  assignments : ∀ name a, g.policyAssignments.get? name = some a →
    ∃ original t, (src.policyAssignment name).Answers original ∧
      original.referencedDefinition = .ok t ∧
      NameKept (r.holder? g.id t) original.referencedDefinition a.referencedDefinition
  members : ∀ name p, g.policySetDefinitions.get? name = some p →
    ∃ original, (src.policySetDefinition name none).Answers original ∧
      List.Forall₂ (fun m m' => ∃ d, m.definitionName = .ok d ∧
          NameKept (r.holder? g.id (.definition d)) m.definitionName m'.definitionName)
        original.properties.members p.properties.members

/-- A deployed group keeps the names of copies that the source gave. -/
theorem Group.NamesKept.deployed {r : Registry} {req : GroupRequest} {level : Nat}
    {c : AssetCopies} (hc : c.Original src) (uniqueRoles : Bool)
    (hrefs : ∀ ref ∈ (Hierarchy.newGroup req level c).references, ∃ t, ref.target = .ok t) :
    ((Hierarchy.newGroup req level c).deployed (r.holder? req.id) uniqueRoles).NamesKept src r where
  assignments name a ha := by
    have hget : (c.policyAssignments.map (PolicyAssignment.deployed (r.holder? req.id)
        (Hierarchy.newGroup req level c))).get? name = some a := ha
    rw [OrderedMap.get?_map] at hget
    obtain ⟨a₀, ha₀, rfl⟩ := Option.map_eq_some_iff.mp hget
    -- The group was deployed with success, so each of its references could be read.
    obtain ⟨t, ht⟩ := hrefs _ (Group.mem_references_of_assignment ha₀)
    refine ⟨a₀, t, (hc.policyAssignment ha₀).1, ht, ?_⟩
    rw [PolicyAssignment.referencedDefinition, PolicyAssignment.referencedDefinition,
      PolicyAssignment.deployed_policyDefinitionId ht]
    exact .target _ ht
  members name p hp := by
    have hget : (c.policySetDefinitions.map (PolicySetDefinition.deployed (r.holder? req.id)
        req.id)).get? name = some p := hp
    rw [OrderedMap.get?_map] at hget
    obtain ⟨p₀, hp₀, rfl⟩ := Option.map_eq_some_iff.mp hget
    refine ⟨p₀, hc.policySetDefinition hp₀, ?_⟩
    refine List.forall₂_map_right_iff.mpr (List.forall₂_same.mpr fun m hm => ?_)
    obtain ⟨t, ht⟩ := hrefs _ (Group.mem_references_of_member hp₀ hm)
    cases hname : m.definitionName with
    | error e => simp [SetMember.reference, hname, Except.map] at ht
    | ok d =>
      refine ⟨d, rfl, ?_⟩
      rw [← hname, SetMember.definitionName, SetMember.definitionName,
        SetMember.deployed_policyDefinitionId hname]
      exact .definitionName _ hname

namespace Sample

/-- A group below `root` with the assignment. -/
def leaf : GroupRequest := ⟨"leaf", "Leaf", .group "root", "westeurope", false, ["user"]⟩

/-- A root with the definition and the assignment, and with a slash in its id. -/
def slashed : GroupRequest :=
  ⟨"a/b", "Slashed", .external "tenant", "westeurope", false, ["holder", "user"]⟩

end Sample

namespace History

/-- A group that is added with success after some run keeps the names of its references, as far
as the groups that they are pointed at have identifiers that can be read. -/
theorem namesKept_add {uniqueRoles : Bool} {calls : List (σ × Call)} {req : GroupRequest} {s : σ}
    {g : Group} (hok : ((after src uniqueRoles calls).hierarchy.add src req s).1.1 = .ok g) :
    g.NamesKept src ((after src uniqueRoles calls).hierarchy.add src req s).1.2.groups := by
  have hr := linked_after src uniqueRoles calls
  obtain ⟨e, he⟩ | ⟨level, c, hlevel, hc, he⟩ :=
    (after src uniqueRoles calls).hierarchy.add_cases src req s
  · rw [he] at hok
    cases hok
  · rw [he] at hok ⊢
    have hlinked := hr.link (g := Hierarchy.newGroup req level c) hlevel rfl
    -- No reference has a fault, so the group is deployed throughout.
    obtain ⟨hfaults, hg, -⟩ := Hierarchy.settle_ok hlinked hok
    rw [hg]
    exact .deployed hc _ fun ref href => DeploymentContext.exists_target (hfaults ref href)

/-- A group that is added below `root`, where the definition is that it assigns. -/
theorem namesKept_add_leaf :
    ∃ g, ((after Sample.catalog.source false (holderAbove.take 1)).hierarchy.add
        Sample.catalog.source Sample.leaf false).1.1 = .ok g ∧
      g.NamesKept Sample.catalog.source
        ((after Sample.catalog.source false (holderAbove.take 1)).hierarchy.add
          Sample.catalog.source Sample.leaf false).1.2.groups := by
  have hsome : ((after Sample.catalog.source false (holderAbove.take 1)).hierarchy.add
      Sample.catalog.source Sample.leaf false).1.1.toOption.isSome = true := by decide +kernel
  obtain ⟨g, hg⟩ := Option.isSome_iff_exists.mp hsome
  have hok := ok_of_toOption hg
  exact ⟨g, hok, namesKept_add hok⟩

/-- A group with a slash in its id is added with success, but its assignment does not name its
definition any more. -/
theorem names_of_slash :
    ∃ g a, ((after Sample.catalog.source false []).hierarchy.add
        Sample.catalog.source Sample.slashed false).1.1 = .ok g ∧
      g.policyAssignments.get? "assign-audit" = some a ∧
      (Sample.catalog.source.policyAssignment "assign-audit").Answers Sample.assignment ∧
      a.referencedDefinition ≠ Sample.assignment.referencedDefinition := by
  -- The new identifier has one segment too many, so it is refused when it is read.
  have hcopy : (((after Sample.catalog.source false []).hierarchy.add
      Sample.catalog.source Sample.slashed false).1.1.toOption.bind fun g =>
        (g.policyAssignments.get? "assign-audit").map PolicyAssignment.referencedDefinition) =
      some (.error (.resourceId (.truncated ("/providers/Microsoft.Management/managementGroups" ++
        "/a/b/providers/Microsoft.Authorization/policyDefinitions/audit")))) := by
    decide +kernel
  obtain ⟨g, hg, ha⟩ := Option.bind_eq_some_iff.mp hcopy
  obtain ⟨a, hget, htarget⟩ := Option.map_eq_some_iff.mp ha
  have horiginal : Sample.assignment.referencedDefinition = .ok (.definition "audit") := by
    decide +kernel
  refine ⟨g, a, ok_of_toOption hg, hget, ⟨false, rfl⟩, ?_⟩
  rw [htarget, horiginal]
  simp

end History

end Governance
