import Governance.Proofs.Asset.Architecture
import Governance.Proofs.Hierarchy.Tree
import Mathlib

/-!
# `Governance.Proofs.Hierarchy.Rows`: from rows to groups

Rows that name their parents are folded to a forest, the forest is walked parents first, and
the walk grows the registry with its links and levels. `Registry.OfRows` compares the two
ends of this: the registry has one group for each row, which stands where the row says.
Neither the forest nor the walk is mentioned. The level of a group is compared with the
depth of its row (`AtDepth`), and its children with the rows that name it as parent.

`ofRows_of_addArchitecture` proves this of every accepted list of rows, over an arbitrary
source, when the rows are added to an empty hierarchy with success. So rows with two roots
are never added with success, although they are accepted.

`Built` is what the walk keeps. It speaks of requests in any order (`Built.perm`), so the
order in which the forest is walked is gone at once, and `Built.ofRows` reads the tree off
the rows.
-/

set_option autoImplicit false

namespace Governance

variable {σ : Type}

/-! ### Rows and their groups -/

/-- How many parents a row is below a root. -/
inductive AtDepth (rows : List ArchitectureRow) : ArchitectureRow → Nat → Prop where
  | root {row : ArchitectureRow} (hrow : row ∈ rows) (hroot : row.parentId = none) :
    AtDepth rows row 0
  | child {row parent : ArchitectureRow} {n : Nat} (hrow : row ∈ rows)
    (hparent : row.parentId = some parent.id) (h : AtDepth rows parent n) :
    AtDepth rows row (n + 1)

/-- A group is what its row declares, and it stands in the tree as the rows say. -/
structure Group.StandsFor (rows : List ArchitectureRow) (place location : String)
    (row : ArchitectureRow) (g : Group) : Prop where
  id : g.id = row.id
  displayName : g.displayName = row.position.displayName
  existing : g.existing = row.position.existing
  location : g.location = location
  parent? : g.parent? = row.parentId
  externalParent? : g.externalParent? = if row.isRoot then some place else none
  level : ∀ n, AtDepth rows row n ↔ g.level = n
  children : ∀ c, g.children.contains c = true ↔
    ∃ child ∈ rows, child.id = c ∧ child.parentId = some row.id

/-- The groups of a registry are those that rows declare.

- `root`: there is just one root among the rows;
- `keys`: there is one group for each row;
- `group`: the group of a row is what the row declares. -/
structure Registry.OfRows (rows : List ArchitectureRow) (place location : String)
    (r : Registry) : Prop where
  root : ∃ root, rows.filter ArchitectureRow.isRoot = [root]
  keys : r.keys.Perm (rows.map ArchitectureRow.id)
  group : ∀ row ∈ rows, ∃ g, r.get? row.id = some g ∧ g.StandsFor rows place location row

/-! ### Groups that were requested -/

/-- The group is what a request asks for, apart from its assets. -/
structure Group.Meets (req : GroupRequest) (g : Group) : Prop where
  displayName : g.displayName = req.displayName
  existing : g.existing = req.existing
  location : g.location = req.location
  parent : g.parent = req.parent

/-- A registry is built from requests: each of them has its group, and there is no other
group. -/
structure Built (reqs : List GroupRequest) (r : Registry) : Prop where
  linked : r.Linked
  requested : ∀ {id g}, r.get? id = some g → ∃ req ∈ reqs, req.id = id
  group : ∀ req ∈ reqs, ∃ g, r.get? req.id = some g ∧ g.Meets req

/-- Deploying a group changes nothing that the request asks for. -/
theorem Group.Meets.deploy {req : GroupRequest} {g : Group} (h : g.Meets req)
    (ctx : DeploymentContext) : (g.deploy ctx).1.Meets req := by
  unfold Group.deploy
  dsimp only
  split <;> exact ⟨h.displayName, h.existing, h.location, h.parent⟩

namespace Built

variable {reqs : List GroupRequest} {h h' : Hierarchy}

/-- An empty registry is built from no request. -/
theorem empty (uniqueRoles : Bool) : Built [] (Hierarchy.empty uniqueRoles).groups where
  linked := Registry.linked_empty
  requested hg := by simp [Hierarchy.empty, EmptyCollection.emptyCollection] at hg
  group := by simp

/-- The order of the requests does not matter. -/
theorem perm {reqs' : List GroupRequest} {r : Registry} (hbuilt : Built reqs r)
    (hperm : reqs.Perm reqs') : Built reqs' r where
  linked := hbuilt.linked
  requested hg := by
    obtain ⟨req, hreq, hid⟩ := hbuilt.requested hg
    exact ⟨req, hperm.mem_iff.mp hreq, hid⟩
  group req hreq := hbuilt.group req (hperm.mem_iff.mpr hreq)

/-- The group under the id of a request meets it. -/
theorem meets {r : Registry} (hbuilt : Built reqs r) {req : GroupRequest} (hreq : req ∈ reqs)
    {g : Group} (hg : r.get? req.id = some g) : g.Meets req := by
  obtain ⟨g', hg', hmeets⟩ := hbuilt.group req hreq
  rwa [Option.some.inj (hg.symm.trans hg')]

/-- One more group that fits the tree. -/
theorem settle (hbuilt : Built reqs h.groups) {req : GroupRequest} {level : Nat} (c : AssetCopies)
    (hlevel : Hierarchy.level? h.groups req.id req.parent = .ok level) :
    Built (reqs ++ [req]) (h.settle (Hierarchy.newGroup req level c)).2.groups where
  linked := (hbuilt.linked.link (g := Hierarchy.newGroup req level c) hlevel rfl).of_shape
    (h.shape_settle _)
  requested := by
    intro id g hg
    obtain rfl | ⟨g₀, hg₀⟩ := Registry.registered_of_settle hg
    · exact ⟨req, by simp, rfl⟩
    · obtain ⟨req', hreq', hid⟩ := hbuilt.requested hg₀
      exact ⟨req', List.mem_append_left _ hreq', hid⟩
  group := by
    intro req' hreq'
    rw [Hierarchy.get?_settle, Hierarchy.get?_link]
    have hnew : (Hierarchy.newGroup req level c).Meets req := ⟨rfl, rfl, rfl, rfl⟩
    rcases List.mem_append.mp hreq' with hreq' | hreq'
    · -- Its group was there already, so it is under another id, and gets a child at most.
      obtain ⟨g, hg, hmeets⟩ := hbuilt.group req' hreq'
      have hne : req'.id ≠ (Hierarchy.newGroup req level c).id :=
        OrderedMap.ne_of_get? hg (Registry.contains_of_level? hlevel)
      rw [if_neg hne, if_neg hne, hg]
      split
      · exact ⟨_, rfl, hmeets.displayName, hmeets.existing, hmeets.location, hmeets.parent⟩
      · exact ⟨g, rfl, hmeets⟩
    · obtain rfl := List.mem_singleton.mp hreq'
      exact ⟨_, if_pos rfl, hnew.deploy _⟩

/-- One more request that is added with success. -/
theorem add (hbuilt : Built reqs h.groups) {src : AssetSource σ} {req : GroupRequest} {s : σ}
    {g : Group} (hadd : (Hierarchy.add src h req s).1 = (.ok g, h')) :
    Built (reqs ++ [req]) h'.groups := by
  obtain ⟨e, he⟩ | ⟨level, c, hlevel, -, hsettle⟩ := h.add_cases src req s
  · rw [he] at hadd
    cases hadd
  · have hh' : (h.settle (Hierarchy.newGroup req level c)).2 = h' :=
      congrArg Prod.snd (hsettle.symm.trans hadd)
    exact hh' ▸ hbuilt.settle c hlevel

/-- Places that are all added with success. -/
theorem addAll (hbuilt : Built reqs h.groups) {src : AssetSource σ} {name location : String}
    {places : List (Position × Parent)} {s : σ}
    (hall : (Hierarchy.addAll src name location places h s).1 = (.ok (), h')) :
    Built (reqs ++ places.map fun p => Hierarchy.requestFor location p.1 p.2) h'.groups := by
  induction places generalizing reqs h s with
  | nil =>
    obtain rfl : h = h' := congrArg Prod.snd hall
    rwa [List.map_nil, List.append_nil]
  | cons place rest ih =>
    obtain ⟨p, parent⟩ := place
    rw [Hierarchy.addAll_cons_run] at hall
    split at hall
    · cases hall
    · -- The walk goes on only where the addition succeeded.
      split at hall
      · rename_i g h₁ s₁ hrun
        rw [List.map_cons, List.append_cons]
        exact ih (hbuilt.add (by rw [hrun])) hall
      · cases hall

end Built

/-! ### Requests of rows -/

/-- The request for the place of a row. -/
def ArchitectureRow.request (place location : String) (r : ArchitectureRow) : GroupRequest :=
  Hierarchy.requestFor location r.position (r.parent place)

namespace ArchitectureDefinition

variable {a : ArchitectureDefinition} {t : Architecture}

/-- What an accepted declaration requests is what its rows request. -/
theorem requests_perm_rows (h : a.tree = .ok t) (place location : String) :
    (t.requests place location).Perm (a.rows.map (ArchitectureRow.request place location)) := by
  have hroots : t.roots = a.rootTrees := congrArg Architecture.roots (tree_ok h).1
  rw [Architecture.requests, hroots, placementsOf_rootTrees, List.map_map]
  exact (order_perm h).map _

end ArchitectureDefinition

namespace Built

variable {rows : List ArchitectureRow} {place location : String} {r : Registry}

section

variable (hbuilt : Built (rows.map (ArchitectureRow.request place location)) r)

include hbuilt

/-- Each group has its row. -/
theorem exists_row {id : String} {g : Group} (hg : r.get? id = some g) :
    ∃ row ∈ rows, row.id = id := by
  obtain ⟨_, hreq, hid⟩ := hbuilt.requested hg
  obtain ⟨row, hrow, rfl⟩ := List.mem_map.mp hreq
  exact ⟨row, hrow, hid⟩

/-- Each row has its group, which is as the row asks. -/
theorem exists_group {row : ArchitectureRow} (hrow : row ∈ rows) :
    ∃ g, r.get? row.id = some g ∧ g.Meets (row.request place location) :=
  hbuilt.group _ (List.mem_map_of_mem hrow)

/-- The group of a row hangs where the row says. -/
theorem parent_of_row {row : ArchitectureRow} (hrow : row ∈ rows) {g : Group}
    (hg : r.get? row.id = some g) : g.parent = row.parent place :=
  (hbuilt.meets (List.mem_map_of_mem hrow) hg).parent

/-- The level of a group is the depth of its row. -/
theorem atDepth_iff {row : ArchitectureRow} (hrow : row ∈ rows) {g : Group}
    (hg : r.get? row.id = some g) (n : Nat) : AtDepth rows row n ↔ g.level = n := by
  constructor
  · -- Down the rows: a child is one level below its parent.
    intro hdepth
    clear hrow
    induction hdepth generalizing g with
    | root hrow hroot =>
      have hp := hbuilt.parent_of_row hrow hg
      exact hbuilt.linked.level_external hg
        (hp.trans (ArchitectureRow.parent_eq_external.mpr ⟨hroot, rfl⟩))
    | @child row parent n hrow hparent hdepth ih =>
      have hp := hbuilt.parent_of_row hrow hg
      obtain ⟨gp, hgp, hlevel⟩ := hbuilt.linked.parent_group hg
        (hp.trans (ArchitectureRow.parent_eq_group.mpr hparent))
      rw [hlevel, ih hgp]
  · -- Down the groups, where the parent of a group is under the id that its row names.
    rintro rfl
    generalize hid : row.id = id at hg
    induction id, g, hg using hbuilt.linked.induction generalizing row with
    | external id g place' hg hp =>
      subst hid
      rw [hbuilt.linked.level_external hg hp]
      rw [hbuilt.parent_of_row hrow hg] at hp
      exact .root hrow (ArchitectureRow.parent_eq_external.mp hp).1
    | group id g p gp hg hgp hp hlevel ih =>
      subst hid
      obtain ⟨parent, hparent, rfl⟩ := hbuilt.exists_row hgp
      rw [hbuilt.parent_of_row hrow hg] at hp
      rw [hlevel]
      exact .child hrow (ArchitectureRow.parent_eq_group.mp hp) (ih hparent rfl)

/-- The children of a group are those whose rows name its row as parent. -/
theorem children_iff {row : ArchitectureRow} {g : Group} (hg : r.get? row.id = some g)
    (c : String) : g.children.contains c = true ↔
      ∃ child ∈ rows, child.id = c ∧ child.parentId = some row.id := by
  rw [hbuilt.linked.children hg]
  constructor
  · rintro ⟨gc, hgc, hp⟩
    obtain ⟨child, hchild, rfl⟩ := hbuilt.exists_row hgc
    rw [hbuilt.parent_of_row hchild hgc] at hp
    exact ⟨child, hchild, rfl, ArchitectureRow.parent_eq_group.mp hp⟩
  · rintro ⟨child, hchild, rfl, hparent⟩
    obtain ⟨gc, hgc, hmeets⟩ := hbuilt.exists_group hchild
    exact ⟨gc, hgc, hmeets.parent.trans (ArchitectureRow.parent_eq_group.mpr hparent)⟩

/-- The group of a row is what the row declares. -/
theorem standsFor {row : ArchitectureRow} (hrow : row ∈ rows) {g : Group}
    (hg : r.get? row.id = some g) : g.StandsFor rows place location row := by
  have hmeets := hbuilt.meets (List.mem_map_of_mem hrow) hg
  have hparent : g.parent = row.parent place := hmeets.parent
  -- Fields of the row were in the request. The level and the children come from the tree.
  exact {
    id := hbuilt.linked.id_eq hg
    displayName := hmeets.displayName
    existing := hmeets.existing
    location := hmeets.location
    parent? := by
      rw [Group.parent?, hparent, ArchitectureRow.parent]
      cases row.parentId <;> rfl
    externalParent? := by
      rw [Group.externalParent?, hparent, ArchitectureRow.parent, ArchitectureRow.isRoot]
      cases row.parentId <;> rfl
    level := hbuilt.atDepth_iff hrow hg
    children := hbuilt.children_iff hg }

/-- Rows of two roots would be two groups below a place outside of the hierarchy. -/
theorem id_eq_of_roots {row row' : ArchitectureRow} (hrow : row ∈ rows) (hrow' : row' ∈ rows)
    (hroot : row.isRoot = true) (hroot' : row'.isRoot = true) : row'.id = row.id := by
  obtain ⟨g, hg, hmeets⟩ := hbuilt.exists_group hrow
  obtain ⟨g', hg', hmeets'⟩ := hbuilt.exists_group hrow'
  exact hbuilt.linked.external_unique
    hg (hmeets.parent.trans (ArchitectureRow.parent_eq_external.mpr ⟨isRoot_iff.mp hroot, rfl⟩))
    hg' (hmeets'.parent.trans (ArchitectureRow.parent_eq_external.mpr ⟨isRoot_iff.mp hroot', rfl⟩))

end

/-- A registry that is built from the rows of an accepted declaration is that of its rows. -/
theorem ofRows {a : ArchitectureDefinition} {t : Architecture} (ha : a.tree = .ok t)
    (hbuilt : Built (a.rows.map (ArchitectureRow.request place location)) r) :
    r.OfRows a.rows place location where
  root := by
    obtain ⟨root, hroot, hisRoot⟩ := ArchitectureDefinition.exists_root_of_tree ha
    have hnodup : a.rows.Nodup := (ArchitectureDefinition.tree_ok ha).2.1.of_map _
    -- Two root rows would have one group, and rows have different ids.
    refine ⟨root, List.perm_singleton.mp ?_⟩
    refine (List.perm_ext_iff_of_nodup (hnodup.filter _) (List.nodup_singleton _)).mpr fun row => ?_
    rw [List.mem_filter, List.mem_singleton]
    constructor
    · rintro ⟨hrow, hrowRoot⟩
      exact ArchitectureDefinition.id_injective ha row hrow root hroot
        (hbuilt.id_eq_of_roots hroot hrow hisRoot hrowRoot)
    · rintro rfl
      exact ⟨hroot, hisRoot⟩
  keys := by
    refine (List.perm_ext_iff_of_nodup r.nodup_keys
      (ArchitectureDefinition.tree_ok ha).2.1).mpr fun id => ?_
    rw [OrderedMap.mem_keys, List.mem_map]
    constructor
    · rintro ⟨g, hg⟩
      exact hbuilt.exists_row hg
    · rintro ⟨row, hrow, rfl⟩
      obtain ⟨g, hg, -⟩ := hbuilt.exists_group hrow
      exact ⟨g, hg⟩
  group row hrow := by
    obtain ⟨g, hg, -⟩ := hbuilt.exists_group hrow
    exact ⟨g, hg, hbuilt.standsFor hrow hg⟩

end Built

/-! ### Adding accepted rows -/

namespace Hierarchy

/-- Rows that are accepted and then added with success to an empty hierarchy leave just the
groups that they declare, and one of them is the only root. Rows with two roots are not added
with success. -/
theorem ofRows_of_addArchitecture {a : ArchitectureDefinition} {t : Architecture}
    (ha : a.tree = .ok t) (src : AssetSource σ) {name : String} {s s' : σ}
    (hfound : src.architecture name s = (.ok (some t), s')) (uniqueRoles : Bool)
    (place location : String) :
    let x := (addArchitecture src (.empty uniqueRoles) name place location s).1
    (x.1 = .ok () → x.2.groups.OfRows a.rows place location) ∧
      (1 < (a.rows.filter ArchitectureRow.isRoot).length → ∃ e, x.1 = .error e) := by
  intro x
  have hx : x = (addAll src name location (placementsOf (.external place) t.roots)
      (.empty uniqueRoles) s').1 := by
    show (addArchitecture src _ name place location s).1 = _
    rw [addArchitecture_run, Query.require_run, hfound]
  -- An addition that succeeds has built a group for each request, and there is a request for each
  -- row.
  have hrows : x.1 = .ok () → x.2.groups.OfRows a.rows place location := by
    intro hok
    have hbuilt := (Built.empty uniqueRoles).addAll (hx.symm.trans (Prod.ext hok rfl))
    exact (hbuilt.perm (ArchitectureDefinition.requests_perm_rows ha place location)).ofRows ha
  -- So with two roots it cannot succeed.
  refine ⟨hrows, fun hroots => ?_⟩
  cases hend : x.1 with
  | error e => exact ⟨e, rfl⟩
  | ok =>
    obtain ⟨root, hroot⟩ := (hrows hend).root
    rw [hroot] at hroots
    exact absurd hroots (Nat.lt_irrefl 1)

end Hierarchy

/-! ### Rows that stand before those of their parents -/

namespace Sample

/-- The places of `line`, declared from the bottom to the top. -/
def upward : ArchitectureDefinition where
  name := "line"
  rows := [⟨⟨"leaf", "Leaf", false, .ofList ["user"]⟩, some "middle"⟩,
    ⟨⟨"middle", "Middle", false, {}⟩, some "root"⟩,
    ⟨⟨"root", "Root", true, .ofList ["holder"]⟩, none⟩]

end Sample

/-- The rows of `upward`, in which a child stands before its parent, come to their groups. -/
theorem Hierarchy.ofRows_of_addArchitecture_upward :
    let x := (addArchitecture Sample.lineCatalog.source (.empty false) "line" "tenant"
      "westeurope" false).1
    Sample.upward.tree = .ok Sample.line ∧
    Sample.lineCatalog.source.architecture "line" false = (.ok (some Sample.line), false) ∧
    x.1 = .ok () ∧ x.2.groups.OfRows Sample.upward.rows "tenant" "westeurope" := by
  intro x
  have htree : Sample.upward.tree = .ok Sample.line := by cbv
  have hfound : Sample.lineCatalog.source.architecture "line" false =
      (.ok (some Sample.line), false) := by rfl
  have hok : x.1.toOption = some () := by decide +kernel
  obtain ⟨hrows, -⟩ := ofRows_of_addArchitecture htree Sample.lineCatalog.source hfound false
    "tenant" "westeurope"
  exact ⟨htree, hfound, ok_of_toOption hok, hrows (ok_of_toOption hok)⟩

end Governance
