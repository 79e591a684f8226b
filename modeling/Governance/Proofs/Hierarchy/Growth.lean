import Governance.Proofs.Hierarchy.Owners

/-!
# `Governance.Proofs.Hierarchy.Growth`: what is grown from requests

Over a steady source without a signal to stop, additions do not depend on the state of the
source. `Hierarchy.place` is one addition without the state. It takes the answers of the
source as a function of the request. `Hierarchy.placeAll` adds one request after another,
and `addAll_eq_placeAll` ties it to `Hierarchy.addAll`.

`Grown` says what a registry is after all of some requests were added. It does not mention
their order, and it leaves no freedom: `Grown.unique` proves that two hierarchies grown from
the same requests are equal, in whatever orders they were grown.
-/

set_option autoImplicit false

namespace Governance

variable {σ : Type} {answer : GroupRequest → Except HierarchyError AssetCopies}

/-- The source answers each request as `answer` says, in every state. -/
def AssetSource.Gives (src : AssetSource σ)
    (answer : GroupRequest → Except HierarchyError AssetCopies) : Prop :=
  ∀ req s, ((Query.assets src req).run s).1 = answer req

namespace Hierarchy

/-! ### Additions without the state of a source -/

/-- Adds a group whose assets are answered. -/
def place (answer : GroupRequest → Except HierarchyError AssetCopies) (h : Hierarchy)
    (req : GroupRequest) : Except HierarchyError Group × Hierarchy :=
  match level? h.groups req.id req.parent with
  | .error e => (.error e, h)
  | .ok level =>
    match answer req with
    | .error e => (.error e, h)
    | .ok c => h.settle (newGroup req level c)

/-- Adds groups up to the first failure, which is given with the id of its request. -/
def placeAll (answer : GroupRequest → Except HierarchyError AssetCopies) :
    List GroupRequest → Hierarchy → Option (String × HierarchyError) × Hierarchy
  | [], h => (none, h)
  | req :: rest, h =>
    match place answer h req with
    | (.ok _, h') => placeAll answer rest h'
    | (.error e, h') => (some (req.id, e), h')

/-- An addition succeeds when the group fits the tree, its assets are there, and no reference
of it has a fault. -/
theorem place_ok {h h' : Hierarchy} {req : GroupRequest} {g : Group}
    (hplace : place answer h req = (.ok g, h')) :
    ∃ level c, level? h.groups req.id req.parent = .ok level ∧ answer req = .ok c ∧
      h.settle (newGroup req level c) = (.ok g, h') := by
  unfold place at hplace
  split at hplace
  · simp at hplace
  · rename_i level hlevel
    split at hplace
    · simp at hplace
    · rename_i c hc
      exact ⟨level, c, hlevel, hc, hplace⟩

/-- An addition over a source that gives `answer` is a placement. -/
theorem add_eq_place {src : AssetSource σ} (hgives : src.Gives answer) (h : Hierarchy)
    (req : GroupRequest) (s : σ) : (add src h req s).1 = place answer h req := by
  rw [add_run, prepare_eq, Query.run_bind, place]
  -- The source is asked only if the request fits the tree, and then it gives the answer.
  cases level? h.groups req.id req.parent with
  | error e => rfl
  | ok level =>
    have hlevel : (MonadExcept.ofExcept (Except.ok level : Except HierarchyError Nat) :
        Query σ Nat).run s = (.ok level, s) := rfl
    have hassets := hgives req s
    rw [hlevel]
    dsimp only
    rw [Query.run_bind, ← hassets]
    rcases (Query.assets src req).run s with ⟨e | c, s'⟩ <;> rfl

end Hierarchy

/-! ### What is grown -/

/-- Whether a definition is among copies. -/
def AssetCopies.holds (c : AssetCopies) : ReferencedDefinition → Bool
  | .definition name => c.policyDefinitions.contains name
  | .setDefinition name => c.policySetDefinitions.contains name

/-- A group apart from its children. -/
def Group.alone (g : Group) : Group := { g with children := {} }

/-- Each group of a registry is for a request that was answered. It hangs where the request
says, and it holds what the answer has. -/
def Registry.Answered (answer : GroupRequest → Except HierarchyError AssetCopies)
    (reqs : List GroupRequest) (r : Registry) : Prop :=
  ∀ id g, r.get? id = some g → ∃ req ∈ reqs, ∃ c, answer req = .ok c ∧ req.id = id ∧
    g.parent = req.parent ∧ g.holds = c.holds

/-- The hierarchy is what answers to requests make of it.

- `linked`: the links agree;
- `answered`: each group is for one of the requests;
- `deployed`: for each request, the group is deployed against the holders of the registry. -/
structure Grown (answer : GroupRequest → Except HierarchyError AssetCopies)
    (reqs : List GroupRequest) (h : Hierarchy) : Prop where
  linked : h.groups.Linked
  answered : h.groups.Answered answer reqs
  deployed : ∀ req ∈ reqs, ∃ level c, answer req = .ok c ∧
    DeployedAs Group.alone h (Hierarchy.newGroup req level c)

namespace Registry

/-- A new group holds what its copies have. -/
theorem holds_newGroup (req : GroupRequest) (level : Nat) (c : AssetCopies) :
    (Hierarchy.newGroup req level c).holds = c.holds :=
  funext fun t => by cases t <;> rfl

/-- Requests with identifiers of their own determine what registries agree on. -/
theorem Answered.agree {reqs reqs' : List GroupRequest} {r r' : Registry}
    (h : r.Answered answer reqs) (h' : r'.Answered answer reqs')
    (hids : ∀ x ∈ reqs, ∀ y ∈ reqs', x.id = y.id → x = y) : Agree r r' := by
  intro id g g' hg hg'
  obtain ⟨req, hreq, c, hc, hid, hparent, hholds⟩ := h id g hg
  obtain ⟨req', hreq', c', hc', hid', hparent', hholds'⟩ := h' id g' hg'
  obtain rfl := hids req hreq req' hreq' (hid.trans hid'.symm)
  obtain rfl := Except.ok.inj (hc.symm.trans hc')
  exact ⟨hparent'.trans hparent.symm, hholds'.trans hholds.symm⟩

/-- A group that is linked for an answered request is one more of this kind. -/
theorem Answered.link {reqs : List GroupRequest} {r : Registry} (h : r.Answered answer reqs)
    {req : GroupRequest} {c : AssetCopies} (hc : answer req = .ok c) (level : Nat) :
    (Hierarchy.link r (Hierarchy.newGroup req level c)).Answered answer (reqs ++ [req]) := by
  intro id g hg
  rw [Hierarchy.get?_link] at hg
  split at hg
  · rename_i hid
    obtain rfl := Option.some.inj hg
    exact ⟨req, by simp, c, hc, hid.symm, rfl, holds_newGroup req level c⟩
  -- Another group may get a child, but what it holds and where it hangs stay the same.
  · obtain ⟨g₀, hg₀, hparent, hholds⟩ :
        ∃ g₀, r.get? id = some g₀ ∧ g.parent = g₀.parent ∧ g.holds = g₀.holds := by
      split at hg
      · obtain ⟨g₀, hg₀, rfl⟩ := Option.map_eq_some_iff.mp hg
        exact ⟨g₀, hg₀, rfl, funext fun t => by cases t <;> rfl⟩
      · exact ⟨g, hg, rfl, rfl⟩
    obtain ⟨req', hreq', c', hc', hid', hparent', hholds'⟩ := h id g₀ hg₀
    exact ⟨req', List.mem_append_left _ hreq', c', hc', hid', hparent.trans hparent',
      hholds.trans hholds'⟩

/-- This depends on the shape only. -/
theorem Answered.of_shape {reqs : List GroupRequest} {r r' : Registry}
    (h : r.Answered answer reqs) (hshape : r'.shape = r.shape) : r'.Answered answer reqs := by
  intro id g' hg'
  obtain ⟨g, hg, -⟩ := exists_of_shape hshape hg'
  obtain ⟨hparent, hholds⟩ := agree_of_shape hshape id g g' hg hg'
  obtain ⟨req, hreq, c, hc, hid, hparent₀, hholds₀⟩ := h id g hg
  exact ⟨req, hreq, c, hc, hid, hparent.trans hparent₀, hholds.trans hholds₀⟩

end Registry

namespace Grown

variable {reqs : List GroupRequest} {h h' : Hierarchy}

/-- Nothing is grown from no request. -/
theorem empty (uniqueRoles : Bool) : Grown answer [] (.empty uniqueRoles) :=
  ⟨Registry.linked_empty,
    fun id g hg => by simp [Hierarchy.empty, EmptyCollection.emptyCollection] at hg, by simp⟩

/-- One more request that is placed. -/
theorem place (hgrown : Grown answer reqs h) {req : GroupRequest} {g : Group}
    (hplace : Hierarchy.place answer h req = (.ok g, h')) : Grown answer (reqs ++ [req]) h' := by
  obtain ⟨level, c, hlevel, hc, hsettle⟩ := Hierarchy.place_ok hplace
  have hlinked := hgrown.linked.link (g := Hierarchy.newGroup req level c) hlevel rfl
  have hnew := Registry.contains_of_level? hlevel
  have hshape := h.shape_settle (Hierarchy.newGroup req level c)
  have hok : (h.settle (Hierarchy.newGroup req level c)).1 = .ok g := by rw [hsettle]
  obtain rfl : (h.settle (Hierarchy.newGroup req level c)).2 = h' := by rw [hsettle]
  refine ⟨hlinked.of_shape hshape, (hgrown.answered.link hc level).of_shape hshape, ?_⟩
  intro req' hreq'
  -- The groups before it stay deployed, and the new one was deployed just now.
  rcases List.mem_append.mp hreq' with hreq' | hreq'
  · obtain ⟨level', c', hc', hd⟩ := hgrown.deployed req' hreq'
    exact ⟨level', c', hc', hd.settle (fun _ _ => rfl) hgrown.linked hlinked hnew⟩
  · obtain rfl := List.mem_singleton.mp hreq'
    exact ⟨level, c, hc, .of_settle_ok hlinked hok⟩

/-- Requests that are all placed. -/
theorem placeAll (hgrown : Grown answer reqs h) {l : List GroupRequest}
    (hall : Hierarchy.placeAll answer l h = (none, h')) : Grown answer (reqs ++ l) h' := by
  -- The requests that were answered grow by one at each step.
  induction l generalizing reqs h with
  | nil =>
    simp only [Hierarchy.placeAll, Prod.mk.injEq, true_and] at hall
    rwa [List.append_nil, ← hall]
  | cons req rest ih =>
    rw [Hierarchy.placeAll] at hall
    split at hall
    · rename_i g h₁ hplace
      rw [List.append_cons]
      exact ih (hgrown.place hplace) hall
    · simp at hall

/-- The group of a request hangs where the request says and holds what the answer has. -/
theorem exists_group (hgrown : Grown answer reqs h) {req : GroupRequest} (hreq : req ∈ reqs) :
    ∃ g c, h.groups.get? req.id = some g ∧ answer req = .ok c ∧ g.parent = req.parent ∧
      g.holds = c.holds := by
  obtain ⟨level, c, hc, g, hg, halone⟩ := hgrown.deployed req hreq
  have hparent : g.alone.parent = req.parent := by rw [halone]; rfl
  have hdeployed : g.alone.holds = c.holds := by
    rw [halone]
    funext t
    cases t <;> exact OrderedMap.contains_map _ _ _
  exact ⟨g, c, hg, hc, hparent, hdeployed ▸ funext fun t => by cases t <;> rfl⟩

/-- A group of one hierarchy is in the other one, when both are grown from the same
requests. -/
theorem get?_eq {reqs' : List GroupRequest} (hgrown : Grown answer reqs h)
    (hgrown' : Grown answer reqs' h') (hroles : h'.uniqueRoles = h.uniqueRoles)
    (hmem : ∀ req, req ∈ reqs ↔ req ∈ reqs')
    (hids : ∀ x ∈ reqs, ∀ y ∈ reqs, x.id = y.id → x = y) {id : String} {g : Group}
    (hg : h.groups.get? id = some g) : h'.groups.get? id = some g := by
  have hagree := hgrown.answered.agree hgrown'.answered fun x hx y hy =>
    hids x hx y ((hmem y).mpr hy)
  obtain ⟨req, hreq, -, -, rfl, -⟩ := hgrown.answered id g hg
  obtain ⟨level, c, hc, g₁, hg₁, halone⟩ := hgrown.deployed req hreq
  obtain rfl : g₁ = g := Option.some.inj (hg₁.symm.trans hg)
  obtain ⟨level', c', hc', g', hg', halone'⟩ := hgrown'.deployed req ((hmem req).mp hreq)
  change h'.groups.get? req.id = some g' at hg'
  obtain rfl : c = c' := Except.ok.inj (hc.symm.trans hc')
  have hholder := Registry.holder?_of_agree hgrown.linked hgrown'.linked hagree hg hg'
  -- The level is the length of the way up, which both have in common.
  have hlevel : level' = level := by
    have hl : g₁.level = level := congrArg Group.level halone
    have hl' : g'.level = level' := congrArg Group.level halone'
    rw [← hl, ← hl', ← hgrown.linked.length_ancestors hg, ← hgrown'.linked.length_ancestors hg',
      Registry.ancestors_of_agree hgrown.linked hgrown'.linked hagree hg hg']
  -- Deployed against the same holders, the two are equal apart from their children.
  have hsame : g'.alone = g₁.alone := by
    rw [halone, halone', hlevel, hroles]
    exact congrArg (fun owner? => ((Hierarchy.newGroup req level c).deployed owner? _).alone)
      hholder
  -- Both list the groups that name this one as parent, and these are the same.
  have hchildren : g'.children = g₁.children := OrderedSet.ext_contains fun child => by
    rw [hgrown.linked.children hg, hgrown'.linked.children hg']
    constructor
    · rintro ⟨gc', hgc', hp⟩
      obtain ⟨reqc, hreqc, -, -, rfl, -⟩ := hgrown'.answered child gc' hgc'
      obtain ⟨_, _, -, gc, hgc, -⟩ := hgrown.deployed reqc ((hmem reqc).mpr hreqc)
      exact ⟨gc, hgc, (hagree _ gc gc' hgc hgc').1.symm.trans hp⟩
    · rintro ⟨gc, hgc, hp⟩
      obtain ⟨reqc, hreqc, -, -, rfl, -⟩ := hgrown.answered child gc hgc
      obtain ⟨_, _, -, gc', hgc', -⟩ := hgrown'.deployed reqc ((hmem reqc).mp hreqc)
      exact ⟨gc', hgc', (hagree _ gc gc' hgc hgc').1.trans hp⟩
  have hgroup : g' = g₁ :=
    show { g'.alone with children := g'.children } = { g₁.alone with children := g₁.children } by
      rw [hsame, hchildren]
  rw [← hgroup]
  exact hg'

/-- The same requests grow the same hierarchy, in any order. -/
theorem unique {reqs' : List GroupRequest} (hgrown : Grown answer reqs h)
    (hgrown' : Grown answer reqs' h') (hroles : h'.uniqueRoles = h.uniqueRoles)
    (hmem : ∀ req, req ∈ reqs ↔ req ∈ reqs')
    (hids : ∀ x ∈ reqs, ∀ y ∈ reqs, x.id = y.id → x = y) : h' = h := by
  have hids' : ∀ x ∈ reqs', ∀ y ∈ reqs', x.id = y.id → x = y := fun x hx y hy =>
    hids x ((hmem x).mpr hx) y ((hmem y).mpr hy)
  -- A group of either hierarchy is for a request of both, so the other one has it too.
  have hgroups : h'.groups = h.groups := OrderedMap.ext_get? fun id => by
    cases hg : h.groups.get? id with
    | some g => exact hgrown.get?_eq hgrown' hroles hmem hids hg
    | none =>
      cases hg' : h'.groups.get? id with
      | none => rfl
      | some g' =>
        rw [hgrown'.get?_eq hgrown hroles.symm (fun req => (hmem req).symm) hids' hg'] at hg
        simp at hg
  cases h
  cases h'
  exact congrArg₂ Hierarchy.mk hgroups hroles

end Grown

end Governance
