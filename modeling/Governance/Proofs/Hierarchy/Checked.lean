import Governance.Proofs.Hierarchy.Naming

/-!
# `Governance.Proofs.Hierarchy.Checked`: what was checked stays right

Before an assignment is copied, the set definition that it refers to is looked up, and the
members of the set are checked (`MembersFit`). Later calls read the reference of the copy
again, after it was pointed at the group that holds the definition, and look the set up
again. `History.fits_after` says that the check still passes: when the ids of groups are
segments of identifiers, the text of a reference changes, but what it refers to does not.
This includes groups whose assets were deployed only in part.
-/

set_option autoImplicit false

namespace Governance

variable {σ : Type} {src : AssetSource σ}

/-! ### One assignment -/

/-- The check of an assignment depends on the reference and the version only. -/
theorem MembersFit.congr {a b : PolicyAssignment} (h : MembersFit src a)
    (htarget : b.referencedDefinition = a.referencedDefinition)
    (hversion : b.properties.definitionVersion = a.properties.definitionVersion) :
    MembersFit src b := by
  unfold MembersFit
  rw [htarget, hversion]
  exact h

/-- An assignment that passed its check passes it also after its reference was pointed. -/
theorem MembersFit.deployed {ctx : DeploymentContext} {g : Group} {name : String}
    {a : PolicyAssignment} (h : MembersFit src a)
    (howners : ∀ t owner, ctx.owner? g.id t = some owner → ResourceId.IsSegment owner) :
    MembersFit src (Deployment.assignment ctx g name a).1 := by
  obtain ⟨t, ht, -⟩ := id h
  rw [Deployment.assignment_eq, ht]
  dsimp only
  cases hindex : ctx.owners? t with
  | none => exact h.congr rfl rfl
  | some owners =>
    dsimp only
    cases hnear : Deployment.nearestOwner g.id ctx.ancestors owners with
    | none => exact h.congr rfl rfl
    | some owner =>
      have howner : ctx.owner? g.id t = some owner := by
        rw [DeploymentContext.owner?, hindex, Option.bind_some, hnear]
      -- The text is new, but it is read as what it was before.
      have htarget := ReferencedDefinition.target_idAt (Reference.isSegment_target ht)
        (.of_isSegment (howners t owner howner))
      exact h.congr (htarget.trans ht.symm) rfl

/-! ### One group -/

/-- The assignments of a group pass their checks. -/
def Group.Fits (src : AssetSource σ) (g : Group) : Prop :=
  ∀ name a, g.policyAssignments.get? name = some a → MembersFit src a

/-- Groups of one frame pass the same checks. -/
theorem Group.Fits.of_frame {g g' : Group} (h : g.Fits src) (heq : g'.frame = g.frame) :
    g'.Fits src := by
  intro name a ha
  obtain ⟨a₀, ha₀, hframe⟩ := Group.exists_of_frame heq ha
  obtain ⟨hreference, hversion⟩ := PolicyAssignment.reference_of_frame hframe
  exact (h name a₀ ha₀).congr (congrArg Reference.target hreference.symm) hversion.symm

/-- A group that is deployed, also in part, passes its checks. -/
theorem Group.Fits.deploy {ctx : DeploymentContext} {g : Group} (h : g.Fits src)
    (howners : ∀ t owner, ctx.owner? g.id t = some owner → ResourceId.IsSegment owner) :
    (g.deploy ctx).1.Fits src := by
  intro name a ha
  obtain ⟨a₀, ha₀, rfl | rfl⟩ := Group.get?_deploy_policyAssignments ha
  · exact h name a ha₀
  · exact (h name a₀ ha₀).deployed howners

/-! ### All groups -/

/-- The ids of the groups of a registry can stand in identifiers. -/
def Registry.Readable (r : Registry) : Prop :=
  ∀ id, r.contains id = true → ResourceId.IsSegment id

instance (r : Registry) : Decidable r.Readable :=
  decidable_of_iff (∀ id ∈ r.keys, ResourceId.IsSegment id) (by
    simp only [Registry.Readable, OrderedMap.mem_keys, OrderedMap.contains_eq_true])

/-- The assignments of all groups of a registry pass their checks. -/
def Registry.Fits (src : AssetSource σ) (r : Registry) : Prop :=
  ∀ id g, r.get? id = some g → g.Fits src

/-- A holder of a definition is registered. -/
theorem Registry.contains_of_holder? {r : Registry} {id owner : String}
    {t : ReferencedDefinition} (h : r.holder? id t = some owner) : r.contains owner = true := by
  unfold holder? at h
  have hholds : (r.get? owner).any (fun g => g.holds t) = true := by simpa using List.find?_some h
  obtain ⟨g, hg, -⟩ := (Option.any_eq_true _ _).mp hholds
  exact OrderedMap.contains_eq_true.mpr ⟨g, hg⟩

/-- Registries of one shape have groups under the same ids. -/
theorem Registry.contains_of_shape {r r' : Registry} (h : r'.shape = r.shape) (id : String) :
    r'.contains id = r.contains id := by
  have hcontains : r'.shape.contains id = r.shape.contains id := by rw [h]
  rwa [shape, shape, OrderedMap.contains_map, OrderedMap.contains_map] at hcontains

/-- What was registered before a group was linked is registered after it. -/
theorem Registry.contains_link {r : Registry} {id : String} (h : r.contains id = true)
    (g : Group) : (Hierarchy.link r g).contains id = true := by
  obtain ⟨g₀, hg₀⟩ := OrderedMap.contains_eq_true.mp h
  rw [OrderedMap.contains_eq_true, Hierarchy.get?_link]
  split
  · exact ⟨g, rfl⟩
  · split
    · exact ⟨Hierarchy.noteChild g g₀, by rw [hg₀]; rfl⟩
    · exact ⟨g₀, hg₀⟩

namespace Registry.Fits

/-- One more group leaves the assignments of all groups as their checks want them. -/
theorem settle {h : Hierarchy} {g : Group} (hfits : h.groups.Fits src) (hg : g.Fits src)
    (hlinked : (Hierarchy.link h.groups g).Linked) (hids : (h.settle g).2.groups.Readable) :
    (h.settle g).2.groups.Fits src := by
  intro id g' hg'
  refine Hierarchy.forall_settle hfits (fun _ hg₀ => hg₀) (hg.deploy fun t owner howner => ?_) hg'
  -- The new group is deployed against holders that are registered.
  refine hids owner ?_
  rw [Registry.owner?_context hlinked] at howner
  rw [Registry.contains_of_shape (h.shape_settle g)]
  exact Registry.contains_of_holder? howner

/-- Whether the assignments fit is known from their frames. -/
theorem of_frame {h h' : Hierarchy} (hfits : h.groups.Fits src) (heq : h'.frame = h.frame) :
    h'.groups.Fits src := by
  intro id g' hg'
  obtain ⟨g, hg, hframe⟩ := Hierarchy.exists_of_frame heq hg'
  exact (hfits id g hg).of_frame hframe.symm

end Registry.Fits

/-- After every run that leaves groups with readable ids only, the assignments of all groups
pass the checks that were made when the groups were added. -/
theorem History.fits_after (uniqueRoles : Bool) (calls : List (σ × Call))
    (hids : (after src uniqueRoles calls).hierarchy.groups.Readable) :
    (after src uniqueRoles calls).hierarchy.groups.Fits src := by
  have hall : (after src uniqueRoles calls).hierarchy.groups.Linked ∧
      ((after src uniqueRoles calls).hierarchy.groups.Readable →
        (after src uniqueRoles calls).hierarchy.groups.Fits src) := by
    refine invariant (P := fun t => t.hierarchy.groups.Linked ∧
      (t.hierarchy.groups.Readable → t.hierarchy.groups.Fits src)) ?_ ?_ ?_ calls
    · refine ⟨Registry.linked_empty, fun _ id g hg => ?_⟩
      have hnone : (OrderedMap.empty : Registry).get? id = some g := hg
      simp at hnone
    · rintro t req level c ⟨hlinked, hfits⟩ hlevel hc
      have hlinked' := hlinked.link (g := Hierarchy.newGroup req level c) hlevel rfl
      have hshape := t.hierarchy.shape_settle (Hierarchy.newGroup req level c)
      refine ⟨hlinked'.of_shape hshape, fun hids => ?_⟩
      -- The ids before the step are among those after it.
      have hbefore : t.hierarchy.groups.Readable := fun id hid => by
        refine hids id ?_
        show (t.hierarchy.settle _).2.groups.contains id = true
        rw [Registry.contains_of_shape hshape]
        exact Registry.contains_link hid _
      exact (hfits hbefore).settle (fun name a ha => (hc.policyAssignment ha).2) hlinked' hids
    · rintro t h' ⟨hlinked, hfits⟩ hframe
      have hshape := Hierarchy.shape_of_frame hframe
      refine ⟨hlinked.of_shape hshape, fun hids => Registry.Fits.of_frame (hfits ?_) hframe⟩
      intro id hid
      refine hids id ?_
      rwa [Registry.contains_of_shape hshape]
  exact hall.2 hids

end Governance
