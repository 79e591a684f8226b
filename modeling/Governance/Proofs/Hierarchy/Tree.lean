import Governance.Proofs.Hierarchy.History
import Mathlib.Data.List.Perm.Subperm

/-!
# `Governance.Proofs.Hierarchy.Tree`: the groups form a tree

A registry keeps each link twice: a group names its parent, and the parent lists it as a
child. The level is stored too. `Registry.Linked` says how these agree. It does not mention
chains of parents, so one new group keeps it (`Linked.link`), and a run of calls does
(`linked_after`).

A linked registry has no cycles, because a parent stands one level above its children. The
chain above a group is thus as long as its level (`Linked.length_ancestors`), all of it is
registered at smaller levels, and it ends at the one group without a registered parent
(`Linked.getLast?_ancestors`).

`isTree_after` collects these facts for every state of every run.
-/

set_option autoImplicit false

namespace Governance

/-- The links of a registry agree.

- `id_eq`: each group is registered under its id;
- `level_external`: a group below a place outside of the hierarchy has level 0;
- `parent_group`: the parent of any other group is registered one level above it;
- `external_unique`: at most one group hangs below a place outside of the hierarchy;
- `children`: a group lists just those groups as children that name it as parent. -/
structure Registry.Linked (r : Registry) : Prop where
  id_eq : ∀ {id g}, r.get? id = some g → g.id = id
  level_external : ∀ {id g place}, r.get? id = some g → g.parent = .external place → g.level = 0
  parent_group : ∀ {id g p}, r.get? id = some g → g.parent = .group p →
    ∃ gp, r.get? p = some gp ∧ g.level = gp.level + 1
  external_unique : ∀ {id g place id' g' place'}, r.get? id = some g → g.parent = .external place →
    r.get? id' = some g' → g'.parent = .external place' → id' = id
  children : ∀ {p gp}, r.get? p = some gp → ∀ c,
    gp.children.contains c = true ↔ ∃ g, r.get? c = some g ∧ g.parent = .group p

/-- Two groups have the same links. -/
structure Group.SameLinks (g g' : Group) : Prop where
  id : g'.id = g.id
  level : g'.level = g.level
  parent : g'.parent = g.parent
  children : g'.children = g.children

namespace Registry

/-- Registries of one shape have groups of one shape under the same ids. -/
theorem exists_of_shape {r r' : Registry} (h : r'.shape = r.shape) {id : String} {g' : Group}
    (hg : r'.get? id = some g') : ∃ g, r.get? id = some g ∧ g.SameLinks g' := by
  have hget : r'.shape.get? id = r.shape.get? id := by rw [h]
  simp only [shape, OrderedMap.get?_map, hg, Option.map_some] at hget
  obtain ⟨g, hr, hshape⟩ := Option.map_eq_some_iff.mp hget.symm
  simp only [Group.shape, Shape.mk.injEq] at hshape
  exact ⟨g, hr, hshape.1.symm, hshape.2.1.symm, hshape.2.2.1.symm, hshape.2.2.2.1.symm⟩

/-- In an empty registry the links agree. -/
theorem linked_empty : Linked ({} : Registry) := by
  constructor <;> intros <;> simp_all [EmptyCollection.emptyCollection]

/-- Whether the links agree depends on the shape only. -/
theorem Linked.of_shape {r r' : Registry} (h : r.Linked) (hshape : r'.shape = r.shape) :
    r'.Linked where
  -- Registries of one shape have the same ids, levels, parents and children, so each link carries
  -- over.
  id_eq hg := by
    obtain ⟨g, hr, hs⟩ := exists_of_shape hshape hg
    rw [hs.id, h.id_eq hr]
  level_external hg hp := by
    obtain ⟨g, hr, hs⟩ := exists_of_shape hshape hg
    rw [hs.level, h.level_external hr (hs.parent ▸ hp)]
  parent_group hg hp := by
    obtain ⟨g, hr, hs⟩ := exists_of_shape hshape hg
    obtain ⟨gp, hgp, hlevel⟩ := h.parent_group hr (hs.parent ▸ hp)
    obtain ⟨gp', hgp', hsp⟩ := exists_of_shape hshape.symm hgp
    exact ⟨gp', hgp', by rw [hs.level, hlevel, hsp.level]⟩
  external_unique hg hp hg' hp' := by
    obtain ⟨g, hr, hs⟩ := exists_of_shape hshape hg
    obtain ⟨g', hr', hs'⟩ := exists_of_shape hshape hg'
    exact h.external_unique hr (hs.parent ▸ hp) hr' (hs'.parent ▸ hp')
  children hgp c := by
    obtain ⟨gp, hr, hs⟩ := exists_of_shape hshape hgp
    rw [hs.children, h.children hr c]
    constructor
    · rintro ⟨g, hg, hp⟩
      obtain ⟨g', hg', hsc⟩ := exists_of_shape hshape.symm hg
      exact ⟨g', hg', hsc.parent ▸ hp⟩
    · rintro ⟨g', hg', hp⟩
      obtain ⟨g, hg, hsc⟩ := exists_of_shape hshape hg'
      exact ⟨g, hg, hsc.parent ▸ hp⟩

/-! ### One group more -/

/-- A group in a registry with `g` linked is `g`, or was there and may have `g` as a child
more. -/
theorem get?_link_cases {r : Registry} {g g' : Group} {id : String}
    (h : (Hierarchy.link r g).get? id = some g') :
    id = g.id ∧ g' = g ∨ id ≠ g.id ∧ ∃ g₀, r.get? id = some g₀ ∧ g'.id = g₀.id ∧
      g'.level = g₀.level ∧ g'.parent = g₀.parent ∧ ∀ c, g'.children.contains c = true ↔
        g.parent = .group id ∧ c = g.id ∨ g₀.children.contains c = true := by
  rw [Hierarchy.get?_link] at h
  split at h
  · exact Or.inl ⟨‹_›, (Option.some.inj h).symm⟩
  -- Any other group was there before. It gets a child if it is the parent.
  · refine Or.inr ⟨‹_›, ?_⟩
    split at h
    · obtain ⟨g₀, hg₀, rfl⟩ := Option.map_eq_some_iff.mp h
      refine ⟨g₀, hg₀, rfl, rfl, rfl, fun c => ?_⟩
      simp [Hierarchy.noteChild, OrderedSet.contains_insert, *]
    · exact ⟨g', h, rfl, rfl, rfl, fun c => by simp [*]⟩

/-- An id that is registered after a group was settled is that of this group, or it was
registered before. -/
theorem registered_of_settle {h : Hierarchy} {g g' : Group} {id : String}
    (hg' : (h.settle g).2.groups.get? id = some g') :
    id = g.id ∨ ∃ g₀, h.groups.get? id = some g₀ := by
  obtain ⟨g₁, hg₁, -⟩ := exists_of_shape (h.shape_settle g) hg'
  obtain ⟨hid, -⟩ | ⟨-, g₀, hg₀, -⟩ := get?_link_cases hg₁
  · exact Or.inl hid
  · exact Or.inr ⟨g₀, hg₀⟩

/-- A registered group stays, with the same parent and the same level. -/
theorem exists_get?_link {r : Registry} {g g₀ : Group} {id : String} (h : r.get? id = some g₀)
    (hne : id ≠ g.id) : ∃ g', (Hierarchy.link r g).get? id = some g' ∧
      g'.parent = g₀.parent ∧ g'.level = g₀.level := by
  rw [Hierarchy.get?_link, if_neg hne, h]
  split
  · exact ⟨_, rfl, rfl, rfl⟩
  · exact ⟨_, rfl, rfl, rfl⟩

/-- A group that fits below a place outside of the hierarchy has level 0, and no other group
is below such a place. -/
theorem level?_external {r : Registry} {id place : String} {level : Nat}
    (h : Hierarchy.level? r id (.external place) = .ok level) :
    r.contains id = false ∧ level = 0 ∧
      ∀ {x g place'}, r.get? x = some g → g.parent ≠ .external place' := by
  unfold Hierarchy.level? at h
  split at h
  · simp at h
  · rename_i hid
    dsimp only at h
    split at h
    · simp at h
    · split at h
      · simp at h
      · -- The last check found no group with an external parent.
        rename_i hfind
        simp only [Except.ok.injEq] at h
        refine ⟨by simpa using hid, h.symm, fun {x g place'} hg hp => ?_⟩
        have hnone := List.find?_eq_none.mp hfind g (OrderedMap.mem_values.mpr ⟨x, hg⟩)
        simp [Group.externalParent?, hp, Parent.external?] at hnone

/-- The id of a group that fits the tree is new. -/
theorem contains_of_level? {r : Registry} {id : String} {parent : Parent} {level : Nat}
    (h : Hierarchy.level? r id parent = .ok level) : r.contains id = false := by
  cases parent with
  | group p => exact (Hierarchy.level?_group h).1
  | external place => exact (level?_external h).1

/-- A new group without children that fits the tree keeps the links in agreement. -/
theorem Linked.link {r : Registry} (h : r.Linked) {g : Group}
    (hlevel : Hierarchy.level? r g.id g.parent = .ok g.level) (hchildren : g.children = {}) :
    (Hierarchy.link r g).Linked := by
  have hfresh : ∀ {g₀}, r.get? g.id ≠ some g₀ := by
    rw [OrderedMap.contains_eq_false.mp (contains_of_level? hlevel)]
    simp
  -- Each field is shown of the new group first, and then of those that were there.
  constructor
  case id_eq =>
    intro id g' hg'
    obtain ⟨rfl, rfl⟩ | ⟨-, g₀, hg₀, hid, -⟩ := get?_link_cases hg'
    · rfl
    · rw [hid, h.id_eq hg₀]
  case level_external =>
    intro id g' place hg' hp
    obtain ⟨-, rfl⟩ | ⟨-, g₀, hg₀, -, hl, hp₀, -⟩ := get?_link_cases hg'
    · exact (level?_external (hp ▸ hlevel)).2.1
    · rw [hl, h.level_external hg₀ (hp₀ ▸ hp)]
  case parent_group =>
    intro id g' p hg' hp
    obtain ⟨-, rfl⟩ | ⟨-, g₀, hg₀, -, hl₀, hp₀, -⟩ := get?_link_cases hg'
    · obtain ⟨-, gp, hgp, hl⟩ := Hierarchy.level?_group (hp ▸ hlevel)
      obtain ⟨gp', hgp', -, hl'⟩ := exists_get?_link (g := g') hgp fun he => hfresh (he ▸ hgp)
      exact ⟨gp', hgp', by rw [hl, hl']⟩
    · obtain ⟨gp, hgp, hl⟩ := h.parent_group hg₀ (hp₀ ▸ hp)
      obtain ⟨gp', hgp', -, hl'⟩ := exists_get?_link (g := g) hgp fun he => hfresh (he ▸ hgp)
      exact ⟨gp', hgp', by rw [hl₀, hl, hl']⟩
  case external_unique =>
    intro id g₁ place id' g₂ place' hg₁ hp₁ hg₂ hp₂
    obtain ⟨rfl, rfl⟩ | ⟨-, g₁', hg₁', -, -, hp₁', -⟩ := get?_link_cases hg₁ <;>
      obtain ⟨rfl, hg⟩ | ⟨-, g₂', hg₂', -, -, hp₂', -⟩ := get?_link_cases hg₂
    · rfl
    · exact absurd (hp₂' ▸ hp₂) ((level?_external (hp₁ ▸ hlevel)).2.2 hg₂')
    · subst hg
      exact absurd (hp₁' ▸ hp₁) ((level?_external (hp₂ ▸ hlevel)).2.2 hg₁')
    · exact h.external_unique hg₁' (hp₁' ▸ hp₁) hg₂' (hp₂' ▸ hp₂)
  case children =>
    intro p gp hgp c
    obtain ⟨rfl, rfl⟩ | ⟨-, gp₀, hgp₀, -, -, -, hc⟩ := get?_link_cases hgp
    · -- Nothing names the new group as parent: it was not registered.
      rw [hchildren]
      refine iff_of_false (by simp [EmptyCollection.emptyCollection]) ?_
      rintro ⟨gc, hgc, hp⟩
      obtain ⟨rfl, rfl⟩ | ⟨-, gc₀, hgc₀, -, -, hp₀, -⟩ := get?_link_cases hgc
      · obtain ⟨-, g₀, hg₀, -⟩ := Hierarchy.level?_group (hp ▸ hlevel)
        exact hfresh hg₀
      · obtain ⟨g₀, hg₀, -⟩ := h.parent_group hgc₀ (hp₀ ▸ hp)
        exact hfresh hg₀
    · rw [hc, h.children hgp₀]
      constructor
      · rintro (⟨hp, rfl⟩ | ⟨gc, hgc, hp⟩)
        · exact ⟨g, by rw [Hierarchy.get?_link, if_pos rfl], hp⟩
        · obtain ⟨gc', hgc', hp', -⟩ := exists_get?_link (g := g) hgc fun he => hfresh (he ▸ hgc)
          exact ⟨gc', hgc', hp' ▸ hp⟩
      · rintro ⟨gc, hgc, hp⟩
        obtain ⟨rfl, rfl⟩ | ⟨-, gc₀, hgc₀, -, -, hp₀, -⟩ := get?_link_cases hgc
        · exact Or.inl ⟨hp, rfl⟩
        · exact Or.inr ⟨gc₀, hgc₀, hp₀ ▸ hp⟩

/-! ### Chains of parents -/

variable {r : Registry}

/-- The way up from a group begins with its parent. -/
theorem chain_of_group {id p : String} {g : Group} (hg : r.get? id = some g)
    (hp : g.parent = .group p) (n : Nat) : r.chain (n + 1) id = p :: r.chain n p := by
  simp [chain, hg, Group.parent?, hp, Parent.group?]

/-- From a root there is no way up. -/
theorem chain_of_external {id place : String} {g : Group} (hg : r.get? id = some g)
    (hp : g.parent = .external place) (n : Nat) : r.chain n id = [] := by
  cases n <;> simp [chain, hg, Group.parent?, hp, Parent.group?]

/-- From an id without a group there is no way up. -/
theorem chain_of_none {id : String} (h : r.get? id = none) (n : Nat) : r.chain n id = [] := by
  cases n <;> simp [chain, h]

namespace Linked

/-- Induction from the root down: a property of a group follows from that of its parent. -/
theorem induction (h : r.Linked) {motive : ∀ id g, r.get? id = some g → Prop}
    (external : ∀ id g place hg, g.parent = .external place → motive id g hg)
    (group : ∀ id g p gp hg hgp, g.parent = .group p → g.level = gp.level + 1 →
      motive p gp hgp → motive id g hg)
    (id : String) (g : Group) (hg : r.get? id = some g) : motive id g hg := by
  -- The level falls from a group to its parent, so the induction is on the level.
  induction hn : g.level generalizing id g with
  | zero =>
    cases hp : g.parent with
    | external place => exact external id g place hg hp
    | group p =>
      obtain ⟨gp, -, hl⟩ := h.parent_group hg hp
      omega
  | succ n ih =>
    cases hp : g.parent with
    | external place => exact external id g place hg hp
    | group p =>
      obtain ⟨gp, hgp, hl⟩ := h.parent_group hg hp
      exact group id g p gp hg hgp hp hl (ih p gp hgp (by omega))

/-- With steps enough, a chain is as long as the level, whatever the number of steps. -/
theorem chain_eq (h : r.Linked) {id : String} {g : Group} (hg : r.get? id = some g) {n : Nat}
    (hn : g.level ≤ n) : r.chain n id = r.chain g.level id ∧ (r.chain n id).length = g.level := by
  induction id, g, hg using h.induction generalizing n with
  | external id g place hg hp =>
    simp [chain_of_external hg hp, h.level_external hg hp]
  | group id g p gp hg hgp hp hl ih =>
    -- One step goes to the parent, and the rest is enough for the level of the parent.
    obtain ⟨m, rfl⟩ : ∃ m, n = m + 1 := ⟨n - 1, by omega⟩
    obtain ⟨heq, hlen⟩ := ih (n := m) (by omega)
    rw [chain_of_group hg hp, hl, chain_of_group hg hp, heq]
    exact ⟨rfl, by rw [List.length_cons, ← heq, hlen]⟩

/-- A chain has only registered groups, of smaller levels. -/
theorem mem_chain (h : r.Linked) {id a : String} {g : Group} (hg : r.get? id = some g) {n : Nat}
    (ha : a ∈ r.chain n id) : ∃ ga, r.get? a = some ga ∧ ga.level < g.level := by
  -- From a parent to its children, as each step of the way leads one level up.
  induction id, g, hg using h.induction generalizing n with
  | external id g place hg hp => simp [chain_of_external hg hp] at ha
  | group id g p gp hg hgp hp hl ih =>
    cases n with
    | zero => simp [chain] at ha
    | succ m =>
      rw [chain_of_group hg hp] at ha
      rcases List.mem_cons.mp ha with rfl | ha
      · exact ⟨gp, hgp, by omega⟩
      · obtain ⟨ga, hga, hlt⟩ := ih ha
        exact ⟨ga, hga, by omega⟩

/-- A group does not stand above itself. -/
theorem notMem_chain (h : r.Linked) {id : String} {g : Group} (hg : r.get? id = some g)
    (n : Nat) : id ∉ r.chain n id := by
  intro hmem
  -- Its level would be smaller than itself.
  obtain ⟨g', hg', hlt⟩ := h.mem_chain hg hmem
  rw [hg, Option.some.injEq] at hg'
  subst hg'
  omega

/-- A chain repeats nothing. -/
theorem nodup_chain (h : r.Linked) {id : String} {g : Group} (hg : r.get? id = some g)
    (n : Nat) : (id :: r.chain n id).Nodup := by
  induction id, g, hg using h.induction generalizing n with
  | external id g place hg hp => simp [chain_of_external hg hp]
  | group id g p gp hg hgp hp hl ih =>
    refine List.nodup_cons.mpr ⟨h.notMem_chain hg n, ?_⟩
    cases n with
    | zero => simp [chain]
    | succ m =>
      rw [chain_of_group hg hp]
      exact ih m

/-- The registry is larger than any level in it: a group and those above it are as many
entries. -/
theorem level_lt_size (h : r.Linked) {id : String} {g : Group} (hg : r.get? id = some g) :
    g.level < r.size := by
  have hsub : id :: r.chain g.level id ⊆ r.keys := by
    intro a ha
    rcases List.mem_cons.mp ha with rfl | ha
    · exact OrderedMap.mem_keys.mpr ⟨g, hg⟩
    · obtain ⟨ga, hga, -⟩ := h.mem_chain hg ha
      exact OrderedMap.mem_keys.mpr ⟨ga, hga⟩
  -- Entries that are all different are at most as many as the keys that they are among.
  have hle := (List.subperm_of_subset (h.nodup_chain hg g.level) hsub).length_le
  rw [List.length_cons, (h.chain_eq hg (Nat.le_refl _)).2, OrderedMap.length_keys] at hle
  omega

/-! ### Ancestors -/

/-- An id without a group has no ancestors. -/
theorem ancestors_of_none {id : String} (hid : r.get? id = none) : r.ancestors id = [] :=
  chain_of_none hid r.size

/-- A root has no ancestors. -/
theorem ancestors_of_external {id place : String} {g : Group} (hg : r.get? id = some g)
    (hp : g.parent = .external place) : r.ancestors id = [] :=
  chain_of_external hg hp r.size

/-- Above a group is its parent, and then what is above the parent. -/
theorem ancestors_of_group (h : r.Linked) {id p : String} {g : Group} (hg : r.get? id = some g)
    (hp : g.parent = .group p) : r.ancestors id = p :: r.ancestors p := by
  obtain ⟨gp, hgp, hl⟩ := h.parent_group hg hp
  have hlt := h.level_lt_size hg
  -- Both chains have steps enough, so neither depends on the size of the registry.
  rw [ancestors, (h.chain_eq hg (by omega)).1, hl, chain_of_group hg hp, ancestors,
    (h.chain_eq hgp (n := r.size) (by omega)).1]

/-- There are as many groups above a group as its level says. -/
theorem length_ancestors (h : r.Linked) {id : String} {g : Group} (hg : r.get? id = some g) :
    (r.ancestors id).length = g.level :=
  (h.chain_eq hg (Nat.le_of_lt (h.level_lt_size hg))).2

/-- The groups above a group are registered, and their levels are smaller. -/
theorem mem_ancestors (h : r.Linked) {id a : String} {g : Group} (hg : r.get? id = some g)
    (ha : a ∈ r.ancestors id) : ∃ ga, r.get? a = some ga ∧ ga.level < g.level :=
  h.mem_chain hg ha

/-- No group is twice on the way up, and none is its own ancestor. -/
theorem nodup_ancestors (h : r.Linked) (id : String) : (id :: r.ancestors id).Nodup := by
  cases hg : r.get? id with
  | none => simp [ancestors_of_none hg]
  | some g => exact h.nodup_chain hg r.size

/-- What is above a group above another one is above that one. -/
theorem mem_ancestors_trans (h : r.Linked) {a b c : String} (hab : a ∈ r.ancestors b)
    (hbc : b ∈ r.ancestors c) : a ∈ r.ancestors c := by
  cases hc : r.get? c with
  | none => simp [ancestors_of_none hc] at hbc
  | some g =>
    induction c, g, hc using h.induction with
    | external c g place hg hp => simp [ancestors_of_external hg hp] at hbc
    | group c g p gp hg hgp hp hl ih =>
      rw [h.ancestors_of_group hg hp] at hbc ⊢
      rcases List.mem_cons.mp hbc with rfl | hbc
      · exact List.mem_cons_of_mem _ hab
      · exact List.mem_cons_of_mem _ (ih hbc)

/-- Up from every group the chain ends at a group below a place outside of the hierarchy. -/
theorem exists_root (h : r.Linked) {id : String} {g : Group} (hg : r.get? id = some g) :
    ∃ root groot place, r.get? root = some groot ∧ groot.parent = .external place ∧
      (id :: r.ancestors id).getLast? = some root := by
  induction id, g, hg using h.induction with
  | external id g place hg hp =>
    exact ⟨id, g, place, hg, hp, by rw [ancestors_of_external hg hp]; rfl⟩
  | group id g p gp hg hgp hp hl ih =>
    obtain ⟨root, groot, place, hroot, hplace, hlast⟩ := ih
    refine ⟨root, groot, place, hroot, hplace, ?_⟩
    rw [h.ancestors_of_group hg hp, List.getLast?_cons_cons, hlast]

/-- The chain ends at the same root for all groups. -/
theorem getLast?_ancestors (h : r.Linked) {id root place : String} {g groot : Group}
    (hg : r.get? id = some g) (hroot : r.get? root = some groot)
    (hplace : groot.parent = .external place) :
    (id :: r.ancestors id).getLast? = some root := by
  obtain ⟨root', groot', place', hroot', hplace', hlast⟩ := h.exists_root hg
  rw [hlast, h.external_unique hroot hplace hroot' hplace']

end Linked

/-! ### Trees -/

/-- The groups of a registry form a tree below a place outside of the hierarchy, as far as
the look-ups of the registry show. -/
structure IsTree (r : Registry) : Prop where
  /-- Each group is registered under its id. -/
  id_eq : ∀ id g, r.get? id = some g → g.id = id
  /-- Unless there is no group at all, one group has an external parent, and no other has. -/
  root_unique : r.size ≠ 0 → ∃ root g, r.get? root = some g ∧ g.externalParent?.isSome = true ∧
    ∀ id g', r.get? id = some g' → g'.externalParent?.isSome = true → id = root
  root : ∀ id g, r.get? id = some g → g.externalParent?.isSome = true →
    g.parent? = none ∧ g.level = 0
  inner : ∀ id g, r.get? id = some g → g.externalParent? = none →
    ∃ p gp, g.parent? = some p ∧ r.get? p = some gp ∧ g.level = gp.level + 1
  children : ∀ p gp, r.get? p = some gp → ∀ c,
    gp.children.contains c = true ↔ ∃ gc, r.get? c = some gc ∧ gc.parent? = some p
  length_ancestors : ∀ id g, r.get? id = some g → (r.ancestors id).length = g.level
  nodup_ancestors : ∀ id, (r.ancestors id).Nodup
  notMem_ancestors : ∀ id, id ∉ r.ancestors id
  /-- The last group up from any group is the root. -/
  getLast?_ancestors : ∀ id g root groot, r.get? id = some g → r.get? root = some groot →
    groot.externalParent?.isSome = true → (id :: r.ancestors id).getLast? = some root
  isAbove_irrefl : ∀ id, r.isAbove id id = false
  isAbove_trans : ∀ a b c, r.isAbove a b = true → r.isAbove b c = true → r.isAbove a c = true
  root_isAbove : ∀ root groot id g, r.get? root = some groot →
    groot.externalParent?.isSome = true → r.get? id = some g → id ≠ root →
    r.isAbove root id = true

/-- A group has an external parent if it hangs at an external place. -/
theorem externalParent?_isSome {g : Group} :
    g.externalParent?.isSome = true ↔ ∃ place, g.parent = .external place := by
  cases hp : g.parent <;> simp [Group.externalParent?, hp, Parent.external?]

/-- The external parent of a group is the place that it hangs at. -/
theorem externalParent?_eq_some {g : Group} {place : String} :
    g.externalParent? = some place ↔ g.parent = .external place := by
  cases hp : g.parent <;> simp [Group.externalParent?, hp, Parent.external?]

/-- A group has a parent if it hangs at a group. -/
theorem parent?_eq_some {g : Group} {p : String} : g.parent? = some p ↔ g.parent = .group p := by
  cases hp : g.parent <;> simp [Group.parent?, hp, Parent.group?]

/-- The groups above a group are its ancestors. -/
theorem isAbove_eq_true {a b : String} : r.isAbove a b = true ↔ a ∈ r.ancestors b := by
  simp [isAbove]

/-- Linked groups form a tree. -/
theorem Linked.isTree (h : r.Linked) : r.IsTree where
  id_eq id g hg := h.id_eq hg
  root_unique hsize := by
    obtain ⟨g, hmem⟩ : ∃ g, g ∈ r.values := by
      refine List.exists_mem_of_ne_nil _ fun hnil => hsize ?_
      simpa [OrderedMap.values, OrderedMap.size] using hnil
    obtain ⟨id, hg⟩ := OrderedMap.mem_values.mp hmem
    -- Up from any group there is a root, and it is the only one.
    obtain ⟨root, groot, place, hroot, hplace, -⟩ := h.exists_root hg
    refine ⟨root, groot, hroot, externalParent?_isSome.mpr ⟨place, hplace⟩, ?_⟩
    intro id' g' hg' hexternal
    obtain ⟨place', hplace'⟩ := externalParent?_isSome.mp hexternal
    exact h.external_unique hroot hplace hg' hplace'
  root id g hg hexternal := by
    obtain ⟨place, hplace⟩ := externalParent?_isSome.mp hexternal
    exact ⟨by rw [Group.parent?, hplace, Parent.group?], h.level_external hg hplace⟩
  inner id g hg hinner := by
    cases hp : g.parent with
    | external place => simp [Group.externalParent?, hp, Parent.external?] at hinner
    | group p =>
      obtain ⟨gp, hgp, hl⟩ := h.parent_group hg hp
      exact ⟨p, gp, parent?_eq_some.mpr hp, hgp, hl⟩
  children p gp hgp c := by
    rw [h.children hgp]
    simp only [parent?_eq_some]
  length_ancestors id g hg := h.length_ancestors hg
  nodup_ancestors id := (h.nodup_ancestors id).of_cons
  notMem_ancestors id := (List.nodup_cons.mp (h.nodup_ancestors id)).1
  getLast?_ancestors id g root groot hg hroot hexternal := by
    obtain ⟨place, hplace⟩ := externalParent?_isSome.mp hexternal
    exact h.getLast?_ancestors hg hroot hplace
  isAbove_irrefl id := by
    simpa [isAbove] using (List.nodup_cons.mp (h.nodup_ancestors id)).1
  isAbove_trans a b c hab hbc := by
    rw [isAbove_eq_true] at hab hbc ⊢
    exact h.mem_ancestors_trans hab hbc
  root_isAbove root groot id g hroot hexternal hg hne := by
    obtain ⟨place, hplace⟩ := externalParent?_isSome.mp hexternal
    have hlast := List.mem_of_getLast? (h.getLast?_ancestors hg hroot hplace)
    exact isAbove_eq_true.mpr ((List.mem_cons.mp hlast).resolve_left hne.symm)

end Registry

namespace History

variable {σ : Type} (src : AssetSource σ) (uniqueRoles : Bool) (calls : List (σ × Call))

/-- The links agree after every run. -/
theorem linked_after : (after src uniqueRoles calls).hierarchy.groups.Linked := by
  refine invariant (P := fun t => t.hierarchy.groups.Linked) Registry.linked_empty ?_ ?_ calls
  · intro t req level c h hlevel _
    exact (h.link (g := Hierarchy.newGroup req level c) hlevel rfl).of_shape
      (t.hierarchy.shape_settle _)
  · intro t h' h hframe
    exact h.of_shape (Hierarchy.shape_of_frame hframe)

/-- After every run of calls, whatever failed or was stopped in it, the groups form a
tree. -/
theorem isTree_after : (after src uniqueRoles calls).hierarchy.groups.IsTree :=
  (linked_after src uniqueRoles calls).isTree

end History

end Governance
