import Governance.Proofs.Hierarchy.Tree

/-!
# `Governance.Proofs.Hierarchy.Addition`: one leaf more, or nothing

An addition prepares a group, links it and deploys it. Everything that can fail before the group is
linked leaves the hierarchy as it was. What fails while the group is deployed leaves the group in
the hierarchy (`Hierarchy.rewriteFailure?`).

* `Registry.GainsLeaf`: a registry has one leaf more, its parent lists it, and nothing else is
  different.
* `Hierarchy.settle_gains`: to link and deploy a new group that fits the tree makes this difference,
  whether the deployment fails or not.
* `Hierarchy.AdditionEnds`: the three ways in which an addition can end (`Hierarchy.add_ends`).
* `History.add_nothing_or_leaf`: after every run, an addition makes this difference or none at all,
  and its error tells which.
-/

set_option autoImplicit false

namespace Governance

variable {σ : Type}

/-- The error leaves a reference without a definition to point it at. -/
inductive RewriteFault : HierarchyError → Prop
  | unreachable (group : String) (kind : AssetKind) (asset reference definition : String)
    (owners : List String) :
    RewriteFault (.unreachableDefinition group kind asset reference definition owners)
  | invalid (group : String) (kind : AssetKind) (asset : String) (cause : ReferenceError) :
    RewriteFault (.invalidReference group kind asset cause)

/-- The registry `r'` is `r` with the leaf `g` more.

- `fresh` and `registered`: the id of the group was free, and the group is registered under it;
- `childless` and `leaf`: it has no children, and no group names it as parent;
- `parent`: a parent in the hierarchy was there before;
- `others`: every other id finds what it found before, but for the new child of the parent. -/
structure Registry.GainsLeaf (r r' : Registry) (g : Group) : Prop where
  fresh : r.get? g.id = none
  registered : r'.get? g.id = some g
  childless : g.children = {}
  leaf : ∀ {id g'}, r'.get? id = some g' → g'.parent ≠ .group g.id
  parent : ∀ {p}, g.parent = .group p → r.contains p = true
  others : ∀ id, id ≠ g.id → r'.get? id = (r.get? id).map fun g' =>
    if g.parent = .group id then { g' with children := g'.children.insert g.id } else g'

namespace DeploymentContext

/-- A fault is a reference that is invalid or does not reach. -/
theorem rewriteFault_of_fault {ctx : DeploymentContext} {group : String} {ref : AssetReference}
    {e : HierarchyError} (h : ctx.fault group ref = some e) : RewriteFault e := by
  cases htarget : ref.target with
  | error cause =>
    rw [fault, htarget] at h
    cases h
    exact .invalid ..
  | ok t =>
    obtain ⟨owners, -, -, rfl⟩ := fault_eq_some htarget h
    exact .unreachable ..

end DeploymentContext

namespace Hierarchy

/-- The error that deploying the group of a request ends with; `none` where the group is not
prepared, and where its deployment succeeds. -/
def rewriteFailure? (src : AssetSource σ) (h : Hierarchy) (req : GroupRequest) (s : σ) :
    Option HierarchyError :=
  match ((prepare src h.groups req).run s).1 with
  | .ok g => (g.deploy (context (link h.groups g) h.uniqueRoles g.id)).2
  | .error _ => none

/-- The hierarchy `h'` is `h` with the group `g` as one leaf more, where the request asks for it. -/
structure Gains (h : Hierarchy) (req : GroupRequest) (h' : Hierarchy) (g : Group) : Prop where
  id : g.id = req.id
  parent : g.parent = req.parent
  uniqueRoles : h'.uniqueRoles = h.uniqueRoles
  leaf : h.groups.GainsLeaf h'.groups g

/-- How an addition can end, by the failure to deploy the group: before the group is linked, with
this failure, or with the group. -/
inductive AdditionEnds (h : Hierarchy) (req : GroupRequest) :
    Option HierarchyError → Except HierarchyError Group × Hierarchy → Prop
  | nothing (e : HierarchyError) : AdditionEnds h req none (.error e, h)
  | fault (e : HierarchyError) (g : Group) (h' : Hierarchy) (gains : h.Gains req h' g)
    (fault : RewriteFault e) : AdditionEnds h req (some e) (.error e, h')
  | leaf (g : Group) (h' : Hierarchy) (gains : h.Gains req h' g) :
    AdditionEnds h req none (.ok g, h')

/-- A new group that fits the tree is one leaf more, deployed as far as it was. -/
theorem settle_gains {h : Hierarchy} (hlinked : h.groups.Linked) {g : Group}
    (hlevel : level? h.groups g.id g.parent = .ok g.level) (hchildren : g.children = {}) :
    h.groups.GainsLeaf (h.settle g).2.groups
      (g.deploy (context (link h.groups g) h.uniqueRoles g.id)).1 := by
  have hregistered : (h.settle g).2.groups.get? g.id =
      some (g.deploy (context (link h.groups g) h.uniqueRoles g.id)).1 := by
    rw [get?_settle, if_pos rfl]
  have hlinked' : (h.settle g).2.groups.Linked :=
    (hlinked.link hlevel hchildren).of_shape (shape_settle h g)
  -- Deploying changes neither the place of the group nor its children.
  have hshape := g.shape_deploy (context (link h.groups g) h.uniqueRoles g.id)
  generalize (g.deploy (context (link h.groups g) h.uniqueRoles g.id)).1 = g'
    at hregistered hshape ⊢
  simp only [Group.shape, Shape.mk.injEq] at hshape
  obtain ⟨hid, -, hparent, hnone, -⟩ := hshape
  rw [hchildren] at hnone
  constructor
  case fresh => exact hid ▸ OrderedMap.contains_eq_false.mp (Registry.contains_of_level? hlevel)
  case registered => exact hid ▸ hregistered
  case childless => exact hnone
  case leaf =>
    intro id g'' hg'' hbelow
    -- A group below it would be one of its children.
    have hchild := (hlinked'.children hregistered id).mpr ⟨g'', hg'', hid ▸ hbelow⟩
    rw [hnone] at hchild
    cases hchild
  case parent =>
    intro p hp
    rw [hparent.symm.trans hp] at hlevel
    obtain ⟨-, gp, hgp, -⟩ := level?_group hlevel
    exact OrderedMap.contains_eq_true.mpr ⟨gp, hgp⟩
  case others =>
    intro id hne
    rw [hid] at hne
    rw [get?_settle, if_neg hne, get?_link, if_neg hne, hparent]
    split
    · rw [hid]
      rfl
    · exact Option.map_id'.symm

/-- A failure to deploy a group is a fault of one of its references. -/
theorem rewriteFault_of_deploy {g : Group} {ctx : DeploymentContext} {e : HierarchyError}
    (h : (g.deploy ctx).2 = some e) : RewriteFault e := by
  rw [Group.deploy_failure] at h
  obtain ⟨ref, -, href⟩ := List.exists_of_findSome?_eq_some h
  exact DeploymentContext.rewriteFault_of_fault href

/-- Settling a prepared group ends with it, or with the failure to deploy it. -/
theorem settle_ends {h : Hierarchy} (hlinked : h.groups.Linked) {req : GroupRequest} {level : Nat}
    (hlevel : level? h.groups req.id req.parent = .ok level) (c : AssetCopies) :
    let g := newGroup req level c
    AdditionEnds h req (g.deploy (context (link h.groups g) h.uniqueRoles g.id)).2
      (h.settle g) := by
  intro g
  have hgains : h.Gains req (h.settle g).2
      (g.deploy (context (link h.groups g) h.uniqueRoles g.id)).1 := by
    have hshape := g.shape_deploy (context (link h.groups g) h.uniqueRoles g.id)
    constructor
    case id => exact congrArg Shape.id hshape
    case parent => exact congrArg Shape.parent hshape
    case uniqueRoles => rfl
    case leaf => exact settle_gains hlinked hlevel rfl
  unfold settle at hgains ⊢
  dsimp only at hgains ⊢
  -- The group is there in both cases, since a failure to deploy it comes after it was linked.
  cases hfailure : (g.deploy (context (link h.groups g) h.uniqueRoles g.id)).2 with
  | none => exact .leaf _ _ hgains
  | some e => exact .fault e _ _ hgains (rewriteFault_of_deploy hfailure)

/-- A request that fails before its group is settled leaves the hierarchy, and every other one ends
as its group settles. -/
theorem add_ends (src : AssetSource σ) {h : Hierarchy} (hlinked : h.groups.Linked)
    (req : GroupRequest) (s : σ) :
    AdditionEnds h req (h.rewriteFailure? src req s) (add src h req s).1 := by
  rw [add_run]
  unfold rewriteFailure?
  rcases hrun : (prepare src h.groups req).run s with ⟨e | g, s'⟩
  · exact .nothing e
  · obtain ⟨⟨level, c, hlevel, -, rfl⟩, -⟩ :=
      (prepare_ensures src.keeps_true h.groups req).of_ok trivial hrun
    exact settle_ends hlinked hlevel c

end Hierarchy

namespace Sample

/-- A group below `root` that assigns a definition which another group there has. -/
def beside : GroupRequest := ⟨"right", "Right", .group "root", "westeurope", false, ["user"]⟩

end Sample

namespace History

/-- After every run, an addition changes nothing, or it adds one leaf.

It changes nothing when it ends with an error other than that of deploying the group. In all other
cases the hierarchy has the group as one leaf more: the addition succeeds, or it ends with the error
of deploying the group, which is that a reference is invalid or does not reach. The group that is
returned is the one that is registered. -/
theorem add_nothing_or_leaf (src : AssetSource σ) (uniqueRoles : Bool) (calls : List (σ × Call))
    (req : GroupRequest) (s : σ) :
    let h := (after src uniqueRoles calls).hierarchy
    let ended := (h.add src req s).1
    (∀ e, ended.1 = .error e → h.rewriteFailure? src req s ≠ some e → ended.2 = h) ∧
    ((∃ g, ended.1 = .ok g) ∨ (∃ e, h.rewriteFailure? src req s = some e) →
      ended.2.uniqueRoles = h.uniqueRoles ∧
      ∃ g, g.id = req.id ∧ g.parent = req.parent ∧ h.groups.GainsLeaf ended.2.groups g) ∧
    (∀ e, h.rewriteFailure? src req s = some e → ended.1 = .error e ∧ RewriteFault e) ∧
    ∀ g, ended.1 = .ok g → g.id = req.id ∧ ended.2.groups.get? req.id = some g := by
  intro h ended
  have hends : h.AdditionEnds req (h.rewriteFailure? src req s) ended :=
    Hierarchy.add_ends src (linked_after src uniqueRoles calls) req s
  generalize h.rewriteFailure? src req s = failure at hends ⊢
  clear_value ended
  -- Each of the four statements follows from the way in which the request ended.
  cases hends with
  | nothing e =>
    refine ⟨?_, ?_, ?_, ?_⟩
    · intro _ _ _
      rfl
    · rintro (⟨g, hg⟩ | ⟨e', he'⟩)
      · cases hg
      · cases he'
    · intro e' he'
      cases he'
    · intro g hg
      cases hg
  | fault e g h' hgains hfault =>
    refine ⟨?_, ?_, ?_, ?_⟩
    · intro e' he' hne
      exact absurd (congrArg some (Except.error.inj he')) hne
    · intro _
      exact ⟨hgains.uniqueRoles, g, hgains.id, hgains.parent, hgains.leaf⟩
    · intro e' he'
      cases he'
      exact ⟨rfl, hfault⟩
    · intro g' hg'
      cases hg'
  | leaf g h' hgains =>
    refine ⟨?_, ?_, ?_, ?_⟩
    · intro e he
      cases he
    · intro _
      exact ⟨hgains.uniqueRoles, g, hgains.id, hgains.parent, hgains.leaf⟩
    · intro e he
      cases he
    · intro g' hg'
      cases hg'
      exact ⟨hgains.id, hgains.id ▸ hgains.leaf.registered⟩

/-- A root without assets and below it a group with a definition. -/
def holderBelow : List (Bool × Call) :=
  [(false, .add ⟨"root", "Root", .external "tenant", "westeurope", false, []⟩),
   (false, .add ⟨"left", "Left", .group "root", "westeurope", false, ["holder"]⟩)]

/-- The group beside `left` cannot refer to the definition, and is there all the same; what was
added before is not added again. -/
theorem add_nothing_or_leaf_beside :
    let h := (after Sample.catalog.source false holderBelow).hierarchy
    (∃ e, (h.add Sample.catalog.source Sample.beside false).1.1 = .error e ∧ RewriteFault e ∧
      ∃ g, g.id = "right" ∧ g.parent = .group "root" ∧
        h.groups.GainsLeaf (h.add Sample.catalog.source Sample.beside false).1.2.groups g) ∧
    ∃ e, (h.add Sample.catalog.source { Sample.beside with id := "left" } false).1 =
      (.error e, h) := by
  intro h
  have hfails : (h.rewriteFailure? Sample.catalog.source Sample.beside false).isSome = true := by
    decide +kernel
  have hagain : (h.add Sample.catalog.source { Sample.beside with id := "left" }
      false).1.1.toOption.isNone = true := by decide +kernel
  have hearly : (h.rewriteFailure? Sample.catalog.source { Sample.beside with id := "left" }
      false).isNone = true := by decide +kernel
  obtain ⟨e, he⟩ := Option.isSome_iff_exists.mp hfails
  obtain ⟨-, hgrown, hrewrite, -⟩ := add_nothing_or_leaf Sample.catalog.source false holderBelow
    Sample.beside false
  obtain ⟨hsame, -, -, -⟩ := add_nothing_or_leaf Sample.catalog.source false holderBelow
    { Sample.beside with id := "left" } false
  refine ⟨⟨e, (hrewrite e he).1, (hrewrite e he).2, (hgrown (.inr ⟨e, he⟩)).2⟩, ?_⟩
  rw [Option.isNone_iff_eq_none] at hagain hearly
  cases hresult : (h.add Sample.catalog.source { Sample.beside with id := "left" } false).1.1 with
  | ok g =>
    rw [hresult] at hagain
    cases hagain
  | error e' =>
    -- It failed, and not while its group was deployed, so nothing changed.
    have hnone : h.rewriteFailure? Sample.catalog.source { Sample.beside with id := "left" } false ≠
        some e' := by simp [hearly]
    exact ⟨e', Prod.ext hresult (hsame e' hresult hnone)⟩

end History

end Governance
