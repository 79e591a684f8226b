import Governance.Hierarchy.View
import Governance.Proofs.Hierarchy.Tree

/-!
# `Governance.Proofs.Hierarchy.Anchor`: the way up leaves the hierarchy

In a view a group has one parent, which for the root is the id of a place outside of the
hierarchy: the anchor. Who follows the parents in a view relies on it that no group is
registered under that id. `HierarchyView.Leaves` is such a way up, from a group to an id
without a group.

The anchor is looked up when the root is added, and never again. After that look-up the root
itself may take the id of its anchor, and so may any later group (`anchor_registered`).
The results:

* `leaves_of_not_requested`: in a run that requests no group under the id of the anchor, the
  way up from every group goes through the groups above it, each of them once, and ends at
  the anchor.
* `not_leaves`: where a group is registered under the id of the anchor, no way up ends. So
  the condition of the first result is the one that matters.
-/

set_option autoImplicit false

namespace Governance

variable {σ : Type}

/-- Following the parents in a view from an id leads through the groups of `path` to `place`,
and there is no group under `place`. -/
inductive HierarchyView.Leaves (v : HierarchyView) : String → List String → String → Prop where
  | outside {place : String} (h : v.groups.get? place = none) : Leaves v place [] place
  | up {id p place : String} {g : GroupView} {path : List String} (hg : v.groups.get? id = some g)
      (hp : g.parent = some p) (h : Leaves v p path place) : Leaves v id (id :: path) place

/-- The view has the groups of the hierarchy, each in its own view. -/
theorem Hierarchy.get?_view (h : Hierarchy) (id : String) :
    h.view.groups.get? id = (h.groups.get? id).map Group.view :=
  OrderedMap.get?_map _ _ _

namespace Registry.Linked

variable {h : Hierarchy} {root place : String} {groot : Group}

/-- Below a place without a group, the way up goes through the ancestors and ends at the
place. -/
theorem leaves (hlinked : h.groups.Linked) (hroot : h.groups.get? root = some groot)
    (hplace : groot.parent = .external place) (hout : h.groups.get? place = none) {id : String}
    {g : Group} (hg : h.groups.get? id = some g) :
    h.view.Leaves id (id :: h.groups.ancestors id) place := by
  have hview : ∀ {id g}, h.groups.get? id = some g → h.view.groups.get? id = some g.view := by
    intro id g hg
    rw [Hierarchy.get?_view, hg, Option.map_some]
  -- From the root down: a group has one step more than its parent.
  induction id, g, hg using hlinked.induction with
  | external id g place' hg hp =>
    obtain rfl : id = root := hlinked.external_unique hroot hplace hg hp
    obtain rfl : groot = g := Option.some.inj (hroot.symm.trans hg)
    rw [ancestors_of_external hg hp]
    refine .up (hview hg) (p := place) ?_ (.outside ?_)
    · show some groot.parent.id = some place
      rw [hplace, Parent.id]
    · rw [Hierarchy.get?_view, hout, Option.map_none]
  | group id g p gp hg hgp hp _ ih =>
    rw [hlinked.ancestors_of_group hg hp]
    refine .up (hview hg) (p := p) ?_ ih
    show some g.parent.id = some p
    rw [hp, Parent.id]

/-- Below a place with a group, the way up from a group does not end. -/
theorem not_leaves (hlinked : h.groups.Linked) (hroot : h.groups.get? root = some groot)
    (hplace : groot.parent = .external place) (hin : h.groups.contains place = true)
    {id outside : String} {path : List String} (hid : h.groups.contains id = true) :
    ¬ h.view.Leaves id path outside := by
  intro hleaves
  -- Every step leads from a group to a group, so there is no last one.
  induction hleaves with
  | outside hnone =>
    rw [Hierarchy.get?_view, Option.map_eq_none_iff, ← OrderedMap.contains_eq_false] at hnone
    rw [hnone] at hid
    cases hid
  | @up id p place' gv path hgv hp _ ih =>
    refine ih ?_
    rw [Hierarchy.get?_view] at hgv
    obtain ⟨g, hg, rfl⟩ := Option.map_eq_some_iff.mp hgv
    have hparent : g.parent.id = p := Option.some.inj hp
    cases hgp : g.parent with
    | external place'' =>
      obtain rfl : id = root := hlinked.external_unique hroot hplace hg hgp
      obtain rfl : groot = g := Option.some.inj (hroot.symm.trans hg)
      rw [hplace, Parent.id] at hparent
      rwa [← hparent]
    | group q =>
      obtain ⟨gq, hgq, -⟩ := hlinked.parent_group hg hgp
      rw [hgp, Parent.id] at hparent
      rw [← hparent]
      exact OrderedMap.contains_eq_true.mpr ⟨gq, hgq⟩

end Registry.Linked

namespace History

/-- Every registered id is that of a request of the run. -/
theorem requested_after (src : AssetSource σ) (uniqueRoles : Bool) (calls : List (σ × Call))
    (id : String) (g : Group)
    (hg : (after src uniqueRoles calls).hierarchy.groups.get? id = some g) :
    ∃ call ∈ calls, ∃ req, call.2.Requests src req ∧ req.id = id := by
  revert id g
  -- A group is registered by a request only, and calls after it do not rename it.
  refine invariant_requested (P := fun t => ∀ id g,
    t.hierarchy.groups.get? id = some g →
      ∃ call ∈ calls, ∃ req, call.2.Requests src req ∧ req.id = id) ?_ ?_ ?_
  · intro id g hg
    cases hg
  · intro t req level c ⟨call, hcall, hreq⟩ ih _ _ id g hg
    obtain rfl | ⟨g₀, hg₀⟩ := Registry.registered_of_settle hg
    · exact ⟨call, hcall, req, hreq, rfl⟩
    · exact ih id g₀ hg₀
  · intro t h' ih hframe id g' hg'
    obtain ⟨g, hg, -⟩ := Hierarchy.exists_of_frame hframe hg'
    exact ih id g hg

/-- After a run that requests no group under the id of the anchor, the anchor is outside of the
hierarchy, and the way up from every group meets the groups above it, each of them once, and
ends at the anchor. -/
theorem leaves_of_not_requested (src : AssetSource σ) (uniqueRoles : Bool)
    (calls : List (σ × Call)) {root place : String} {groot : Group}
    (hroot : (after src uniqueRoles calls).hierarchy.groups.get? root = some groot)
    (hplace : groot.externalParent? = some place)
    (hcalls : ∀ call ∈ calls, ∀ req, call.2.Requests src req → req.id ≠ place) :
    let h := (after src uniqueRoles calls).hierarchy
    h.groups.contains place = false ∧ ∀ id, h.groups.contains id = true →
      h.view.Leaves id (id :: h.groups.ancestors id) place ∧
        (id :: h.groups.ancestors id).Nodup := by
  intro h
  have hlinked : h.groups.Linked := linked_after src uniqueRoles calls
  have hparent : groot.parent = .external place := Registry.externalParent?_eq_some.mp hplace
  have hout : h.groups.get? place = none := by
    rw [Option.eq_none_iff_forall_ne_some]
    intro g hg
    obtain ⟨call, hcall, req, hreq, hid⟩ := requested_after src uniqueRoles calls place g hg
    exact hcalls call hcall req hreq hid
  refine ⟨OrderedMap.contains_eq_false.mpr hout, ?_⟩
  intro id hid
  -- So no group stands where the root points, and every group leads up to this place.
  obtain ⟨g, hg⟩ := OrderedMap.contains_eq_true.mp hid
  exact ⟨hlinked.leaves hroot hparent hout hg, hlinked.nodup_ancestors id⟩

/-- The group and the root of the run have other ids than the place outside. -/
theorem leaves_of_not_requested_holderAbove :
    let h := (after Sample.catalog.source false holderAbove).hierarchy
    (∀ call ∈ holderAbove, ∀ req, call.2.Requests Sample.catalog.source req →
      req.id ≠ "tenant") ∧
    (∃ groot, h.groups.get? "root" = some groot ∧ groot.externalParent? = some "tenant") ∧
    h.groups.contains "leaf" = true ∧
    h.groups.contains "tenant" = false ∧
    h.view.Leaves "leaf" ("leaf" :: h.groups.ancestors "leaf") "tenant" ∧
      ("leaf" :: h.groups.ancestors "leaf").Nodup := by
  intro h
  have hcalls : ∀ call ∈ holderAbove, ∀ req, call.2.Requests Sample.catalog.source req →
      req.id ≠ "tenant" := by
    simp [holderAbove, Call.Requests]
  have hanchor : (h.groups.get? "root").bind Group.externalParent? = some "tenant" := by
    decide +kernel
  have hleaf : h.groups.contains "leaf" = true := by decide +kernel
  obtain ⟨groot, hroot, hplace⟩ := Option.bind_eq_some_iff.mp hanchor
  obtain ⟨hout, hleaves⟩ :=
    leaves_of_not_requested Sample.catalog.source false holderAbove hroot hplace hcalls
  exact ⟨hcalls, ⟨groot, hroot, hplace⟩, hleaf, hout, hleaves "leaf" hleaf⟩

/-! ### Groups under the id of the anchor -/

/-- A root under the id of the place that it hangs below. -/
def anchorItself : List (Bool × Call) :=
  [(false, .add ⟨"tenant", "Tenant", .external "tenant", "westeurope", false, []⟩)]

/-- A root, and below it a group under the id of the place that the root hangs below. -/
def anchorBelow : List (Bool × Call) :=
  [(false, .add ⟨"root", "Root", .external "tenant", "westeurope", false, []⟩),
   (false, .add ⟨"tenant", "Tenant", .group "root", "westeurope", false, []⟩)]

/-- The anchor is registered after both runs, all calls of which succeed, and no way up from a
group ends. -/
theorem anchor_registered :
    (after Sample.catalog.source false anchorItself).added = ["tenant"] ∧
    (after Sample.catalog.source false anchorBelow).added = ["root", "tenant"] ∧
    ∀ calls ∈ [anchorItself, anchorBelow],
      let h := (after Sample.catalog.source false calls).hierarchy
      (∃ root groot, h.groups.get? root = some groot ∧
        groot.externalParent? = some "tenant") ∧
      h.groups.contains "tenant" = true ∧
      ∀ id, h.groups.contains id = true → ∀ path place, ¬ h.view.Leaves id path place := by
  have hadded : (after Sample.catalog.source false anchorItself).added = ["tenant"] ∧
      (after Sample.catalog.source false anchorBelow).added = ["root", "tenant"] := by
    decide +kernel
  have hanchor : ∀ calls ∈ [anchorItself, anchorBelow],
      let r := (after Sample.catalog.source false calls).hierarchy.groups
      (r.values.filterMap Group.externalParent?) = ["tenant"] ∧
        r.contains "tenant" = true := by
    decide +kernel
  refine ⟨hadded.1, hadded.2, fun calls hcalls => ?_⟩
  intro h
  obtain ⟨hexternal, hin⟩ := hanchor calls hcalls
  have hmem : "tenant" ∈ h.groups.values.filterMap Group.externalParent? := by
    rw [hexternal]
    exact List.mem_singleton_self _
  obtain ⟨groot, hvalue, hplace⟩ := List.mem_filterMap.mp hmem
  obtain ⟨root, hroot⟩ := OrderedMap.mem_values.mp hvalue
  refine ⟨⟨root, groot, hroot, hplace⟩, hin, fun id hid path place => ?_⟩
  -- A way that leaves would end at the anchor, which is in the tree.
  exact (linked_after Sample.catalog.source false calls).not_leaves hroot
    (Registry.externalParent?_eq_some.mp hplace) hin hid

end History

end Governance
