import Governance.Proofs.Hierarchy.Tree
import Mathlib.Data.List.Find

/-!
# `Governance.Proofs.Hierarchy.Owners`: who holds a definition

A group is deployed against two indices of all holders, one for each kind of definition
(`Registry.owners`). `Registry.holder?` says the same without an index: from a group
outward, it is the first group that holds a copy. `owner?_context` proves the two equal.

Two registries that agree on parents and on copies (`Registry.Agree`) give a group of both
the same holders (`holder?_of_agree`). A new group has nothing below it, so the registry
with it agrees with that without it (`agree_link`). The holder that a group found when it
was added is thus its holder ever after. `Hierarchy.settle_ok` says what is registered when
a group was added with success.
-/

set_option autoImplicit false

namespace Governance

/-- Whether the group holds a copy of a definition. -/
def Group.holds (g : Group) : ReferencedDefinition → Bool
  | .definition name => g.policyDefinitions.contains name
  | .setDefinition name => g.policySetDefinitions.contains name

/-- The nearest group that holds a copy of a definition: the group itself, or the first one
above it. -/
def Registry.holder? (r : Registry) (id : String) (t : ReferencedDefinition) : Option String :=
  (id :: r.ancestors id).find? fun x => (r.get? x).any fun g => g.holds t

namespace Registry

/-! ### The index of holders -/

/-- The index lists a group under a name. -/
def Lists (index : OwnerIndex) (name owner : String) : Prop :=
  ∃ owners, index.get? name = some owners ∧ owners.contains owner = true

/-- A group that is noted for names is listed under them, beside what was listed before. -/
theorem lists_noteOwner (index : OwnerIndex) (owner : String) (names : List String)
    (name x : String) :
    Lists (noteOwner index owner names) name x ↔
      Lists index name x ∨ owner = x ∧ name ∈ names := by
  unfold noteOwner
  -- The names are noted one by one, each in what the others before it left.
  induction names generalizing index with
  | nil => simp
  | cons n rest ih =>
    rw [List.foldl_cons, ih]
    have hstep : Lists (index.insert n (((index.get? n).getD {}).insert owner)) name x ↔
        Lists index name x ∨ owner = x ∧ name = n := by
      unfold Lists
      by_cases hn : name = n
      · subst hn
        cases hget : index.get? name with
        | none =>
          simp [OrderedSet.contains_insert, EmptyCollection.emptyCollection, eq_comm (a := owner)]
        | some owners => simp [OrderedSet.contains_insert, or_comm, eq_comm (a := owner)]
      · simp [OrderedMap.get?_insert_of_ne _ _ hn, hn]
    rw [hstep, List.mem_cons]
    tauto

/-- The index has the names that are noted and those from before. -/
theorem contains_noteOwner (index : OwnerIndex) (owner : String) (names : List String)
    (name : String) :
    (noteOwner index owner names).contains name = true ↔
      index.contains name = true ∨ name ∈ names := by
  unfold noteOwner
  induction names generalizing index with
  | nil => simp
  | cons n rest ih =>
    rw [List.foldl_cons, ih, List.mem_cons]
    by_cases hn : name = n
    · simp [hn, OrderedMap.contains]
    · simp [hn, OrderedMap.contains, OrderedMap.get?_insert_of_ne]

variable {r : Registry}

/-- The index lists the groups with the names that each group gives. -/
theorem lists_owners (names : Group → List String) (name x : String) :
    Lists (r.owners names) name x ↔ ∃ g ∈ r.values, g.id = x ∧ name ∈ names g := by
  -- The fold adds to the index at its start, so the claim is about any start.
  have hfold : ∀ (l : List Group) (index : OwnerIndex),
      Lists (l.foldl (fun index g => noteOwner index g.id (names g)) index) name x ↔
        Lists index name x ∨ ∃ g ∈ l, g.id = x ∧ name ∈ names g := by
    intro l
    induction l with
    | nil => simp
    | cons g rest ih =>
      intro index
      rw [List.foldl_cons, ih, lists_noteOwner]
      simp only [List.mem_cons, exists_eq_or_imp, or_assoc]
  rw [owners, hfold]
  simp [Lists, EmptyCollection.emptyCollection]

/-- The index has an entry for each name that a group gives. -/
theorem contains_owners (names : Group → List String) (name : String) :
    (r.owners names).contains name = true ↔ ∃ g ∈ r.values, name ∈ names g := by
  -- The index grows from one group to the next, so it is arbitrary at the start.
  have hfold : ∀ (l : List Group) (index : OwnerIndex),
      (l.foldl (fun index g => noteOwner index g.id (names g)) index).contains name = true ↔
        index.contains name = true ∨ ∃ g ∈ l, name ∈ names g := by
    intro l
    induction l with
    | nil => simp
    | cons g rest ih =>
      intro index
      rw [List.foldl_cons, ih, contains_noteOwner]
      simp only [List.mem_cons, exists_eq_or_imp, or_assoc]
  rw [owners, hfold]
  simp [OrderedMap.contains, EmptyCollection.emptyCollection]

/-! ### The nearest holder -/

/-- The names of the copies of one kind. -/
def namesLike (t : ReferencedDefinition) (g : Group) : List String :=
  match t with
  | .definition _ => g.policyDefinitions.keys
  | .setDefinition _ => g.policySetDefinitions.keys

/-- A group holds a definition if its name is among those of its kind. -/
theorem holds_iff {g : Group} {t : ReferencedDefinition} :
    g.holds t = true ↔ t.name ∈ namesLike t g := by
  cases t <;> exact OrderedMap.contains_eq_true.trans OrderedMap.mem_keys.symm

/-- The owners in a context are those in the index for the kind. -/
theorem owners?_context (r : Registry) (uniqueRoles : Bool) (id : String)
    (t : ReferencedDefinition) :
    (Hierarchy.context r uniqueRoles id).owners? t =
      (r.owners (namesLike t)).get? t.name := by
  cases t <;> rfl

/-- A definition that the index does not list is held by no group. -/
theorem holds_of_owners?_none {uniqueRoles : Bool} {id : String} {t : ReferencedDefinition}
    (howners : (Hierarchy.context r uniqueRoles id).owners? t = none) {x : String} {g : Group}
    (hg : r.get? x = some g) : g.holds t = false := by
  rw [owners?_context] at howners
  rw [Bool.eq_false_iff]
  intro hholds
  have hcontains := (contains_owners (namesLike t) t.name).mpr
    ⟨g, OrderedMap.mem_values.mpr ⟨x, hg⟩, holds_iff.mp hholds⟩
  simp [OrderedMap.contains, howners] at hcontains

/-- The index lists the groups that hold the definition. -/
theorem contains_of_owners?_some (h : r.Linked) {uniqueRoles : Bool} {id : String}
    {t : ReferencedDefinition} {owners : OrderedSet String}
    (howners : (Hierarchy.context r uniqueRoles id).owners? t = some owners) (x : String) :
    owners.contains x = true ↔ ∃ g, r.get? x = some g ∧ g.holds t = true := by
  rw [owners?_context] at howners
  have hlists : owners.contains x = true ↔
      ∃ g ∈ r.values, g.id = x ∧ t.name ∈ namesLike t g := by
    rw [← lists_owners, Lists, howners]
    simp
  -- The index has groups by what they hold, and the registry has them by their ids.
  rw [hlists]
  constructor
  · rintro ⟨g, hg, rfl, hname⟩
    obtain ⟨x, hx⟩ := OrderedMap.mem_values.mp hg
    exact ⟨g, by rw [h.id_eq hx, hx], holds_iff.mpr hname⟩
  · rintro ⟨g, hg, hholds⟩
    exact ⟨g, OrderedMap.mem_values.mpr ⟨x, hg⟩, h.id_eq hg, holds_iff.mp hholds⟩

/-- The nearest owner is the first one on the way up from the group. -/
theorem nearestOwner_eq_find? (group : String) (ancestors : List String)
    (owners : OrderedSet String) :
    Deployment.nearestOwner group ancestors owners =
      (group :: ancestors).find? owners.contains := by
  rw [Deployment.nearestOwner, List.find?_cons]
  cases owners.contains group <;> rfl

/-- A group is deployed against the nearest holders. -/
theorem owner?_context (h : r.Linked) (uniqueRoles : Bool) (id : String) :
    (Hierarchy.context r uniqueRoles id).owner? id = r.holder? id := by
  funext t
  unfold DeploymentContext.owner? holder?
  cases howners : (Hierarchy.context r uniqueRoles id).owners? t with
  | none =>
    rw [Option.bind_none, eq_comm, List.find?_eq_none]
    intro x _ hx
    -- A holder on the way up would be in the index.
    obtain ⟨g, hg, hholds⟩ := (Option.any_eq_true _ _).mp hx
    simp [holds_of_owners?_none howners hg] at hholds
  | some owners =>
    rw [Option.bind_some, nearestOwner_eq_find?]
    refine congrArg (List.find? · _) (funext fun x => ?_)
    rw [Bool.eq_iff_iff, contains_of_owners?_some h howners, Option.any_eq_true]

/-! ### Registries that agree -/

/-- Groups of one identifier in two registries have the same parent and hold copies of the
same definitions. -/
def Agree (r r' : Registry) : Prop :=
  ∀ id g g', r.get? id = some g → r'.get? id = some g' →
    g'.parent = g.parent ∧ g'.holds = g.holds

/-- Above a group of both registries stand the same groups. -/
theorem ancestors_of_agree {r' : Registry} (h : r.Linked) (h' : r'.Linked) (ha : Agree r r')
    {id : String} {g g' : Group} (hg : r.get? id = some g) (hg' : r'.get? id = some g') :
    r'.ancestors id = r.ancestors id := by
  induction id, g, hg using h.induction generalizing g' with
  | external id g place hg hp =>
    have hp' := (ha id g g' hg hg').1.trans hp
    rw [Linked.ancestors_of_external hg hp, Linked.ancestors_of_external hg' hp']
  | group id g p gp hg hgp hp hl ih =>
    have hp' := (ha id g g' hg hg').1.trans hp
    obtain ⟨gp', hgp', -⟩ := h'.parent_group hg' hp'
    rw [h.ancestors_of_group hg hp, h'.ancestors_of_group hg' hp', ih hgp']

/-- A group of both registries has the same holders in both. -/
theorem holder?_of_agree {r' : Registry} (h : r.Linked) (h' : r'.Linked) (ha : Agree r r')
    {id : String} {g g' : Group} (hg : r.get? id = some g) (hg' : r'.get? id = some g') :
    r'.holder? id = r.holder? id := by
  have hchain := ancestors_of_agree h h' ha hg hg'
  funext t
  rw [holder?, holder?, hchain]
  -- The way up is the same, and each group on it is in both registries.
  refine List.find?_congr fun x hx => ?_
  obtain ⟨gx, hgx, gx', hgx'⟩ : ∃ gx, r.get? x = some gx ∧ ∃ gx', r'.get? x = some gx' := by
    rcases List.mem_cons.mp hx with rfl | hx
    · exact ⟨g, hg, g', hg'⟩
    · obtain ⟨gx, hgx, -⟩ := h.mem_ancestors hg hx
      obtain ⟨gx', hgx', -⟩ := h'.mem_ancestors hg' (hchain ▸ hx)
      exact ⟨gx, hgx, gx', hgx'⟩
  rw [hgx, hgx', Option.any_some, Option.any_some, (ha x gx gx' hgx hgx').2]

/-- Registries of one shape agree. -/
theorem agree_of_shape {r' : Registry} (h : r'.shape = r.shape) : Agree r r' := by
  intro id g g' hg hg'
  have hget : r'.shape.get? id = r.shape.get? id := by rw [h]
  simp only [shape, OrderedMap.get?_map, hg, hg', Option.map_some, Option.some.injEq,
    Group.shape, Shape.mk.injEq] at hget
  obtain ⟨-, -, hparent, -, hdefinitions, hsets⟩ := hget
  refine ⟨hparent, funext fun t => ?_⟩
  cases t with
  | definition name => exact OrderedMap.contains_eq_of_keys hdefinitions name
  | setDefinition name => exact OrderedMap.contains_eq_of_keys hsets name

/-- Linking a new group leaves what was registered in agreement. -/
theorem agree_link {g : Group} (hnew : r.contains g.id = false) :
    Agree r (Hierarchy.link r g) := by
  intro id g₀ g' hg₀ hg'
  have hne : id ≠ g.id := OrderedMap.ne_of_get? hg₀ hnew
  rw [Hierarchy.get?_link, if_neg hne, hg₀] at hg'
  split at hg' <;> cases hg'
  · exact ⟨rfl, funext fun t => by cases t <;> rfl⟩
  · exact ⟨rfl, rfl⟩

end Registry

namespace Hierarchy

/-! ### A group that was added -/

/-- What a group is when it is registered with success: its references have no fault, and
they are pointed at the nearest holders. -/
theorem settle_ok {h : Hierarchy} {g g' : Group} (hlinked : (link h.groups g).Linked)
    (hok : (h.settle g).1 = .ok g') :
    (∀ ref ∈ g.references,
      (context (link h.groups g) h.uniqueRoles g.id).fault g.id ref = none) ∧
    g' = g.deployed ((h.settle g).2.groups.holder? g.id) h.uniqueRoles ∧
    (h.settle g).2.groups.get? g.id = some g' := by
  -- Success means that no reference has a fault, so the group is deployed throughout.
  have hnone : (g.deploy (context (link h.groups g) h.uniqueRoles g.id)).2 = none := by
    unfold settle at hok
    dsimp only at hok
    cases hfailure : (g.deploy (context (link h.groups g) h.uniqueRoles g.id)).2 with
    | none => rfl
    | some e => simp [hfailure] at hok
  have hg' : g' = (g.deploy (context (link h.groups g) h.uniqueRoles g.id)).1 := by
    simp only [settle, hnone, Except.ok.injEq] at hok
    exact hok.symm
  have hget : (h.settle g).2.groups.get? g.id = some g' := by rw [get?_settle, if_pos rfl, hg']
  have hlink : (link h.groups g).get? g.id = some g := by rw [get?_link, if_pos rfl]
  have hshape := shape_settle h g
  refine ⟨?_, ?_, hget⟩
  · rw [Group.deploy_failure, List.findSome?_eq_none_iff] at hnone
    exact hnone
  · rw [hg', Group.deploy_eq_deployed hnone, Registry.owner?_context hlinked,
      Registry.holder?_of_agree hlinked (hlinked.of_shape hshape)
        (Registry.agree_of_shape hshape) hlink hget]
    rfl

/-- A registered group has the same holders after one more group was settled. -/
theorem holder?_settle {h : Hierarchy} (hlinked : h.groups.Linked) {g g₀ : Group}
    (hlinked' : (link h.groups g).Linked) (hnew : h.groups.contains g.id = false) {id : String}
    (hg₀ : h.groups.get? id = some g₀) :
    (h.settle g).2.groups.holder? id = h.groups.holder? id := by
  have hne : id ≠ g.id := OrderedMap.ne_of_get? hg₀ hnew
  obtain ⟨g₁, hg₁, -⟩ := Registry.exists_get?_link (g := g) hg₀ hne
  have hg₂ : (h.settle g).2.groups.get? id = some g₁ := by rw [get?_settle, if_neg hne, hg₁]
  -- Linking a new group changes no holder, and nor does deploying it.
  have hshape := shape_settle h g
  rw [Registry.holder?_of_agree hlinked' (hlinked'.of_shape hshape)
      (Registry.agree_of_shape hshape) hg₁ hg₂,
    Registry.holder?_of_agree hlinked hlinked' (Registry.agree_link hnew) hg₀ hg₁]

end Hierarchy

/-! ### Groups as they were added -/

/-- What is registered for a prepared group is the group deployed against the current
holders, as far as `view` shows. -/
def DeployedAs {β : Type} (view : Group → β) (h : Hierarchy) (g₀ : Group) : Prop :=
  ∃ g, h.groups.get? g₀.id = some g ∧
    view g = view (g₀.deployed (h.groups.holder? g₀.id) h.uniqueRoles)

namespace DeployedAs

variable {β : Type} {view : Group → β} {h : Hierarchy}

/-- One more group changes nothing of this, when `view` does not show children. -/
theorem settle (hview : ∀ child g, view (Hierarchy.noteChild child g) = view g) {g g₀ : Group}
    (hd : DeployedAs view h g₀) (hlinked : h.groups.Linked)
    (hlinked' : (Hierarchy.link h.groups g).Linked) (hnew : h.groups.contains g.id = false) :
    DeployedAs view (h.settle g).2 g₀ := by
  obtain ⟨g₁, hg₁, heq⟩ := hd
  have hne : g₀.id ≠ g.id := OrderedMap.ne_of_get? hg₁ hnew
  -- The new group has another id, so at most a child is noted at this one.
  obtain ⟨g₂, hg₂, hsame⟩ :
      ∃ g₂, (h.settle g).2.groups.get? g₀.id = some g₂ ∧ view g₂ = view g₁ := by
    rw [Hierarchy.get?_settle, if_neg hne, Hierarchy.get?_link, if_neg hne, hg₁]
    split
    · exact ⟨_, rfl, hview g g₁⟩
    · exact ⟨_, rfl, rfl⟩
  refine ⟨g₂, hg₂, ?_⟩
  rw [hsame, heq, Hierarchy.holder?_settle hlinked hlinked' hnew hg₁]
  rfl

/-- A group that was added with success is deployed. -/
theorem of_settle_ok {g g' : Group} (hlinked : (Hierarchy.link h.groups g).Linked)
    (hok : (h.settle g).1 = .ok g') : DeployedAs view (h.settle g).2 g := by
  obtain ⟨-, hg', hget⟩ := Hierarchy.settle_ok hlinked hok
  exact ⟨g', hget, congrArg view hg'⟩

end DeployedAs

end Governance
