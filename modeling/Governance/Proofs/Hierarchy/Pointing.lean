import Governance.Proofs.Hierarchy.Owners

/-!
# `Governance.Proofs.Hierarchy.Pointing`: references stay right

A group is deployed once, against the groups that are registered at that time.
`pointed_after` proves that the result is right for the whole run: in every later state,
each reference of the group is the identifier at its nearest holder of that state, or the
text of the source if there is no holder on the way up (`Group.Pointed`).

The invariant is `IsDeployed`. It says that the group is what `Group.deployed` makes of
copies that the source gave, with the holders of the current registry. Two things keep it:
holders for a registered group never change (`Hierarchy.holder?_settle`), and edits leave the
frame of a group (`Group.frame`), which has its references.

The statement is about groups whose addition succeeded. A group whose deployment failed
keeps references that were not pointed.
-/

set_option autoImplicit false

namespace Governance

variable {σ : Type} {src : AssetSource σ}

/-- The references of a group with the id `id` are right in `r`.

- `members`: the source has an answer for each set definition of the group, and the members
  of the copy are those of the answer. Each names a definition, and its text is the
  identifier of that definition at the nearest holder, or else the text of the source.
- `assignments`: the same of each assignment and the definition or set definition that it
  names. -/
structure Group.Pointed (src : AssetSource σ) (r : Registry) (id : String) (g : Group) : Prop where
  members : ∀ name p, g.policySetDefinitions.get? name = some p →
    (∃ original, (src.policySetDefinition name none).Answers original) ∧
    ∀ original, (src.policySetDefinition name none).Answers original →
      List.Forall₂ (fun m m' => ∃ d, m.definitionName = .ok d ∧
          m'.policyDefinitionId = (ReferencedDefinition.definition d).pointer
            (r.holder? id (.definition d)) m.policyDefinitionId)
        original.properties.members p.properties.members
  assignments : ∀ name a, g.policyAssignments.get? name = some a →
    (∃ original, (src.policyAssignment name).Answers original) ∧
    ∀ original, (src.policyAssignment name).Answers original →
      ∃ t, original.referencedDefinition = .ok t ∧
        a.properties.policyDefinitionId =
          t.pointer (r.holder? id t) original.properties.policyDefinitionId

/-- The copies of a group, without what edits change in them. -/
def Group.copies (g : Group) : AssetCopies where
  policyDefinitions := g.frame.policyDefinitions
  policySetDefinitions := g.frame.policySetDefinitions
  policyAssignments := g.frame.policyAssignments
  roleDefinitions := g.frame.roleDefinitions

/-- The group under an id was made of copies that the source gave. All of their references
name definitions, and each is pointed at its nearest holder. -/
def IsDeployed (src : AssetSource σ) (h : Hierarchy) (id : String) : Prop :=
  ∃ req level c, req.id = id ∧ c.Original src ∧
    (∀ ref ∈ (Hierarchy.newGroup req level c).references, ∃ t, ref.target = .ok t) ∧
    DeployedAs Group.copies h (Hierarchy.newGroup req level c)

namespace IsDeployed

variable {h h' : Hierarchy} {id : String}

/-- Edits keep deployed groups. -/
theorem of_frame (hd : IsDeployed src h id) (hlinked : h.groups.Linked)
    (hframe : h'.frame = h.frame) : IsDeployed src h' id := by
  obtain ⟨req, level, c, hid, hc, hrefs, g, hg, heq⟩ := hd
  obtain ⟨g', hg', hgg⟩ := Hierarchy.exists_of_frame hframe.symm hg
  -- Copies are read off the frame, which an edit keeps.
  have hcopies : g'.copies = g.copies := by
    unfold Group.copies
    rw [hgg]
  have hroles : h'.uniqueRoles = h.uniqueRoles :=
    show h'.frame.uniqueRoles = h.frame.uniqueRoles by rw [hframe]
  have hshape := Hierarchy.shape_of_frame hframe
  have hholder := Registry.holder?_of_agree hlinked (hlinked.of_shape hshape)
    (Registry.agree_of_shape hshape) hg hg'
  refine ⟨req, level, c, hid, hc, hrefs, g', hg', ?_⟩
  rw [hcopies, heq, hroles, ← hholder]

/-- One more group keeps deployed groups. -/
theorem settle (hd : IsDeployed src h id) (hlinked : h.groups.Linked) {g : Group}
    (hlinked' : (Hierarchy.link h.groups g).Linked) (hnew : h.groups.contains g.id = false) :
    IsDeployed src (h.settle g).2 id := by
  obtain ⟨req, level, c, hid, hc, hrefs, hd⟩ := hd
  exact ⟨req, level, c, hid, hc, hrefs, hd.settle (fun _ _ => rfl) hlinked hlinked' hnew⟩

/-- A group that was added with success is deployed. -/
theorem of_settle_ok {req : GroupRequest} {level : Nat} {c : AssetCopies} {g' : Group}
    (hlinked : (Hierarchy.link h.groups (Hierarchy.newGroup req level c)).Linked)
    (hc : c.Original src) (hok : (h.settle (Hierarchy.newGroup req level c)).1 = .ok g') :
    IsDeployed src (h.settle (Hierarchy.newGroup req level c)).2 g'.id := by
  obtain ⟨hfaults, hg', -⟩ := Hierarchy.settle_ok hlinked hok
  have hrefs : ∀ ref ∈ (Hierarchy.newGroup req level c).references, ∃ t, ref.target = .ok t :=
    fun ref href => DeploymentContext.exists_target (hfaults ref href)
  exact ⟨req, level, c, by rw [hg']; rfl, hc, hrefs, .of_settle_ok hlinked hok⟩

/-- A set definition of a deployed group was made of an answer of the source, all of whose
members name definitions. -/
theorem exists_setDefinition (hd : IsDeployed src h id) {g : Group}
    (hg : h.groups.get? id = some g) {name : String} {p : PolicySetDefinition}
    (hp : g.policySetDefinitions.get? name = some p) :
    ∃ p₀, (src.policySetDefinition name none).Answers p₀ ∧
      p = p₀.deployed (h.groups.holder? id) id name ∧
      ∀ m ∈ p₀.properties.members, ∃ d, m.definitionName = .ok d := by
  obtain ⟨req, level, c, rfl, hc, hrefs, g', hg', heq⟩ := hd
  obtain rfl : g = g' := Option.some.inj (hg.symm.trans hg')
  have hsets : g.policySetDefinitions = c.policySetDefinitions.map
      (PolicySetDefinition.deployed (h.groups.holder? req.id) req.id) :=
    congrArg AssetCopies.policySetDefinitions heq
  rw [hsets, OrderedMap.get?_map] at hp
  obtain ⟨p₀, hp₀, rfl⟩ := Option.map_eq_some_iff.mp hp
  refine ⟨p₀, hc.policySetDefinition hp₀, rfl, fun m hm => ?_⟩
  -- The group was deployed with success, so the members could be read.
  obtain ⟨t, ht⟩ := hrefs _ (Group.mem_references_of_member hp₀ hm)
  cases hname : m.definitionName with
  | error e => simp [SetMember.reference, hname, Except.map] at ht
  | ok d => exact ⟨d, rfl⟩

/-- An assignment of a deployed group was made of an answer of the source that passed its check.
Edits keep the frame that it was deployed with. -/
theorem exists_deployed_assignment (hd : IsDeployed src h id) {g : Group}
    (hg : h.groups.get? id = some g) {name : String} {a : PolicyAssignment}
    (ha : g.policyAssignments.get? name = some a) :
    ∃ a₀ t g₀, (src.policyAssignment name).Answers a₀ ∧ MembersFit src a₀ ∧
      a₀.referencedDefinition = .ok t ∧ g₀.id = id ∧
      a.frame = (a₀.deployed (h.groups.holder? id) g₀ name).frame := by
  obtain ⟨req, level, c, rfl, hc, hrefs, g', hg', heq⟩ := hd
  obtain rfl : g = g' := Option.some.inj (hg.symm.trans hg')
  -- An edit may have changed the assignment, so it is its frame that is compared.
  have hassignments : g.policyAssignments.map (fun _ a => a.frame) =
      (c.policyAssignments.map (PolicyAssignment.deployed (h.groups.holder? req.id)
        (Hierarchy.newGroup req level c))).map fun _ a => a.frame :=
    congrArg AssetCopies.policyAssignments heq
  obtain ⟨a₁, ha₁, hframe⟩ := OrderedMap.exists_of_map_eq hassignments ha
  rw [OrderedMap.get?_map] at ha₁
  obtain ⟨a₀, ha₀, rfl⟩ := Option.map_eq_some_iff.mp ha₁
  obtain ⟨t, ht⟩ := hrefs _ (Group.mem_references_of_assignment ha₀)
  obtain ⟨hanswer, hfit⟩ := hc.policyAssignment ha₀
  exact ⟨a₀, t, Hierarchy.newGroup req level c, hanswer, hfit, ht, rfl, hframe.symm⟩

/-- An assignment of a deployed group is pointed as it was deployed. Edits change neither its
reference nor its version. -/
theorem exists_assignment (hd : IsDeployed src h id) {g : Group} (hg : h.groups.get? id = some g)
    {name : String} {a : PolicyAssignment} (ha : g.policyAssignments.get? name = some a) :
    ∃ a₀ t, (src.policyAssignment name).Answers a₀ ∧ MembersFit src a₀ ∧
      a₀.referencedDefinition = .ok t ∧
      a.properties.policyDefinitionId =
        t.pointer (h.groups.holder? id t) a₀.properties.policyDefinitionId ∧
      a.properties.definitionVersion = a₀.properties.definitionVersion := by
  obtain ⟨a₀, t, g₀, hanswer, hfit, ht, -, hframe⟩ := hd.exists_deployed_assignment hg ha
  -- What an edit leaves of the copy is the text that it was pointed at, and the version.
  obtain ⟨hreference, hversion⟩ := PolicyAssignment.reference_of_frame hframe
  refine ⟨a₀, t, hanswer, hfit, ht, ?_, ?_⟩
  · rw [hreference, PolicyAssignment.deployed_policyDefinitionId ht]
  · rw [hversion, PolicyAssignment.deployed_definitionVersion]

/-- A role definition of a deployed group was made of an answer of the source. -/
theorem exists_roleDefinition (hd : IsDeployed src h id) {g : Group}
    (hg : h.groups.get? id = some g) {name : String} {r : RoleDefinition}
    (hr : g.roleDefinitions.get? name = some r) :
    ∃ r₀, (src.roleDefinition name).Answers r₀ ∧ r = r₀.deployed h.uniqueRoles id name := by
  obtain ⟨req, level, c, rfl, hc, -, g', hg', heq⟩ := hd
  obtain rfl : g = g' := Option.some.inj (hg.symm.trans hg')
  have hroles : g.roleDefinitions =
      c.roleDefinitions.map (RoleDefinition.deployed h.uniqueRoles req.id) :=
    congrArg AssetCopies.roleDefinitions heq
  rw [hroles, OrderedMap.get?_map] at hr
  obtain ⟨r₀, hr₀, rfl⟩ := Option.map_eq_some_iff.mp hr
  exact ⟨r₀, hc.roleDefinition hr₀, rfl⟩

/-- The references of a deployed group are right. -/
theorem pointed (hd : IsDeployed src h id) (hsrc : src.Consistent) :
    ∃ g, h.groups.get? id = some g ∧ g.Pointed src h.groups id := by
  obtain ⟨g, hg⟩ : ∃ g, h.groups.get? id = some g := by
    obtain ⟨req, level, c, rfl, -, -, g, hg, -⟩ := hd
    exact ⟨g, hg⟩
  -- The source has one answer only, so the copies were made of the answer at hand.
  refine ⟨g, hg, ?_, ?_⟩
  · intro name p hp
    obtain ⟨p₀, hanswer, rfl, hnames⟩ := hd.exists_setDefinition hg hp
    refine ⟨⟨p₀, hanswer⟩, fun original horiginal => ?_⟩
    obtain rfl := (hsrc.policySetDefinition name none).eq_of_answers horiginal hanswer
    refine List.forall₂_map_right_iff.mpr (List.forall₂_same.mpr fun m hm => ?_)
    obtain ⟨d, hname⟩ := hnames m hm
    exact ⟨d, hname, SetMember.deployed_policyDefinitionId hname⟩
  · intro name a ha
    obtain ⟨a₀, t, hanswer, -, ht, htext, -⟩ := hd.exists_assignment hg ha
    refine ⟨⟨a₀, hanswer⟩, fun original horiginal => ?_⟩
    obtain rfl := (hsrc.policyAssignment name).eq_of_answers horiginal hanswer
    exact ⟨t, ht, htext⟩

end IsDeployed

namespace History

variable (uniqueRoles : Bool) (calls : List (σ × Call))

/-- Every group whose addition succeeded is deployed. -/
theorem isDeployed_after {id : String} (hid : id ∈ (after src uniqueRoles calls).added) :
    IsDeployed src (after src uniqueRoles calls).hierarchy id := by
  have hall : (after src uniqueRoles calls).hierarchy.groups.Linked ∧
      ∀ id ∈ (after src uniqueRoles calls).added,
        IsDeployed src (after src uniqueRoles calls).hierarchy id := by
    refine invariant (P := fun t => t.hierarchy.groups.Linked ∧
      ∀ id ∈ t.added, IsDeployed src t.hierarchy id) ⟨Registry.linked_empty, by simp [start]⟩
      ?_ ?_ calls
    · rintro t req level c ⟨hlinked, hdeployed⟩ hlevel hc
      -- The groups of earlier calls keep what they are; the new one counts if it succeeded.
      have hlinked' := hlinked.link (g := Hierarchy.newGroup req level c) hlevel rfl
      have hnew := Registry.contains_of_level? hlevel
      refine ⟨hlinked'.of_shape (t.hierarchy.shape_settle _), fun id hid => ?_⟩
      rcases List.mem_append.mp hid with hid | hid
      · exact (hdeployed id hid).settle hlinked hlinked' hnew
      · split at hid
        · rename_i g' hok
          obtain rfl := List.mem_singleton.mp hid
          exact IsDeployed.of_settle_ok hlinked' hc hok
        · simp at hid
    · rintro t h' ⟨hlinked, hdeployed⟩ hframe
      exact ⟨hlinked.of_shape (Hierarchy.shape_of_frame hframe),
        fun id hid => (hdeployed id hid).of_frame hlinked hframe⟩
  exact hall.2 id hid

/-- Take a source whose answers agree with each other, and a group whose addition succeeded
at some time in a run. At the end of the run the group is registered, and each of its
references is right. -/
theorem pointed_after (hsrc : src.Consistent) {id : String}
    (hid : id ∈ (after src uniqueRoles calls).added) :
    ∃ g, (after src uniqueRoles calls).hierarchy.groups.get? id = some g ∧
      g.Pointed src (after src uniqueRoles calls).hierarchy.groups id :=
  (isDeployed_after uniqueRoles calls hid).pointed hsrc

/-- The leaf of `holderAbove` is pointed at the holders. -/
theorem pointed_after_holderAbove :
    Sample.catalog.source.Consistent ∧
    "leaf" ∈ (after Sample.catalog.source false holderAbove).added ∧
    ∃ g, (after Sample.catalog.source false holderAbove).hierarchy.groups.get? "leaf" = some g ∧
      g.Pointed Sample.catalog.source
        (after Sample.catalog.source false holderAbove).hierarchy.groups "leaf" := by
  have hsrc : Sample.catalog.source.Consistent := Sample.catalog.source_answersAs.steady.consistent
  have hleaf : "leaf" ∈ (after Sample.catalog.source false holderAbove).added := by
    decide +kernel
  exact ⟨hsrc, hleaf, pointed_after false holderAbove hsrc hleaf⟩

end History

end Governance
