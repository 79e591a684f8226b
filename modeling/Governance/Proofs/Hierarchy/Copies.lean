import Governance.Proofs.Hierarchy.Owners

/-!
# `Governance.Proofs.Hierarchy.Copies`: what a group carries

A group that was added with success has a copy of each asset that the archetypes of its request
list, and no other (`Group.Carries`). A copy is the asset of the catalog, given the identifier and
the scope of the group and pointed at what it refers to. The rest of it is as in the catalog.

What later calls do to the copies of the groups is `Registry.KeepsCopies`. Each kind of call has its
own part of an assignment that it may change (`Call.kept`): growth and derivation change nothing, a
default changes parameters, and a modification changes some fields of one assignment.
`Call.keepsCopies` says so of one call, and `Registry.keepsCopies_run` of every run.

`History.add_carries` puts the two together.
-/

set_option autoImplicit false

namespace Governance

variable {σ : Type} {src : AssetSource σ} {c : Catalog}

/-! ### The names that are listed -/

/-- One of the archetypes lists the name. -/
def Catalog.Lists (c : Catalog) (archetypes : List String)
    (names : Archetype → OrderedSet String) (name : String) : Prop :=
  ∃ archetype ∈ archetypes, ∃ a, c.archetypes.get? archetype = some a ∧
    (names a).contains name = true

namespace AssetSource

/-- The source has each of the archetypes. -/
def Registers (src : AssetSource σ) (archetypes : List String) : Prop :=
  ∀ archetype ∈ archetypes, ∃ a, (src.archetype archetype).Answers a

/-- One of the archetypes lists the name, as the source has them. -/
def Lists (src : AssetSource σ) (archetypes : List String)
    (names : Archetype → OrderedSet String) (name : String) : Prop :=
  ∃ archetype ∈ archetypes, ∃ a, (src.archetype archetype).Answers a ∧
    (names a).contains name = true

/-- Archetypes list what the first one lists and what the others list. -/
theorem lists_cons (src : AssetSource σ) {archetype : String} {a : Archetype}
    (hsrc : (src.archetype archetype).Consistent) (ha : (src.archetype archetype).Answers a)
    {rest : List String} {names : Archetype → OrderedSet String} {name : String} :
    src.Lists (archetype :: rest) names name ↔
      (names a).contains name = true ∨ src.Lists rest names name := by
  have hfirst : (∃ a', (src.archetype archetype).Answers a' ∧ (names a').contains name = true) ↔
      (names a).contains name = true := by
    refine ⟨?_, fun h => ⟨a, ha, h⟩⟩
    rintro ⟨a', ha', h⟩
    rwa [hsrc.eq_of_answers ha ha']
  simp only [Lists, List.mem_cons, exists_eq_or_imp, hfirst]

/-- What archetypes list is what they list in the catalog. The source has some state `s`. -/
theorem AnswersAs.lists_iff (hc : src.AnswersAs c) (s : σ) (archetypes : List String)
    (names : Archetype → OrderedSet String) (name : String) :
    src.Lists archetypes names name ↔ c.Lists archetypes names name := by
  simp only [Lists, Catalog.Lists, fun archetype a =>
    LookUp.answers_iff (hc.archetype archetype) s (a := a)]

end AssetSource

/-- The names of each kind are those that `listed` has of it. -/
structure NamedAssets.Are (listed : (Archetype → OrderedSet String) → String → Prop)
    (n : NamedAssets) : Prop where
  policyDefinitions : ∀ name,
    n.policyDefinitions.contains name = true ↔ listed Archetype.policyDefinitions name
  policySetDefinitions : ∀ name,
    n.policySetDefinitions.contains name = true ↔ listed Archetype.policySetDefinitions name
  policyAssignments : ∀ name,
    n.policyAssignments.contains name = true ↔ listed Archetype.policyAssignments name
  roleDefinitions : ∀ name,
    n.roleDefinitions.contains name = true ↔ listed Archetype.roleDefinitions name

/-- There are copies of just the assets that `listed` has of each kind. -/
structure AssetCopies.Are (listed : (Archetype → OrderedSet String) → String → Prop)
    (copies : AssetCopies) : Prop where
  policyDefinitions : ∀ name,
    copies.policyDefinitions.contains name = true ↔ listed Archetype.policyDefinitions name
  policySetDefinitions : ∀ name,
    copies.policySetDefinitions.contains name = true ↔ listed Archetype.policySetDefinitions name
  policyAssignments : ∀ name,
    copies.policyAssignments.contains name = true ↔ listed Archetype.policyAssignments name
  roleDefinitions : ∀ name,
    copies.roleDefinitions.contains name = true ↔ listed Archetype.roleDefinitions name

namespace NamedAssets

variable {listed : (Archetype → OrderedSet String) → String → Prop} {n : NamedAssets}

/-- No name is there at first. -/
theorem are_empty : empty.Are fun _ _ => False := by
  constructor <;> exact fun name => iff_of_false Bool.false_ne_true not_false

/-- Names are those of every description that says the same. -/
theorem Are.congr {listed' : (Archetype → OrderedSet String) → String → Prop} (h : n.Are listed)
    (hiff : ∀ names name, listed names name ↔ listed' names name) : n.Are listed' where
  policyDefinitions name := (h.policyDefinitions name).trans (hiff _ name)
  policySetDefinitions name := (h.policySetDefinitions name).trans (hiff _ name)
  policyAssignments name := (h.policyAssignments name).trans (hiff _ name)
  roleDefinitions name := (h.roleDefinitions name).trans (hiff _ name)

/-- Noting an archetype for names adds these names. -/
theorem contains_note (archetype : String) (m : OrderedMap String String)
    (names : OrderedSet String) (name : String) :
    (note archetype m names).contains name = true ↔
      m.contains name = true ∨ names.contains name = true := by
  have hfold := OrderedMap.contains_foldl
    (fun m name k => OrderedMap.contains_insertNew m name k archetype) names.toList m name
  rw [List.map_id', ← OrderedSet.contains_iff_mem] at hfold
  exact hfold.trans or_comm

/-- An archetype adds the names that it lists. -/
theorem Are.absorb (h : n.Are listed) (a : Archetype) :
    (n.absorb a).Are fun names name => listed names name ∨ (names a).contains name = true where
  policyDefinitions name :=
    (contains_note ..).trans (or_congr_left (h.policyDefinitions name))
  policySetDefinitions name :=
    (contains_note ..).trans (or_congr_left (h.policySetDefinitions name))
  policyAssignments name :=
    (contains_note ..).trans (or_congr_left (h.policyAssignments name))
  roleDefinitions name :=
    (contains_note ..).trans (or_congr_left (h.roleDefinitions name))

end NamedAssets

namespace Query

/-- The assets that archetypes list are named beside those named before, where the source has all
of the archetypes. -/
theorem named_lists (hsrc : src.Steady) (group : String) (archetypes : List String)
    {n : NamedAssets} {listed : (Archetype → OrderedSet String) → String → Prop}
    (hn : n.Are listed) :
    Ensures (fun _ => True) (named src group n archetypes)
      (fun n' => src.Registers archetypes ∧
        n'.Are fun names name => listed names name ∨ src.Lists archetypes names name)
      fun _ => ¬ src.Registers archetypes := by
  -- The names so far grow by those of one archetype after another.
  induction archetypes generalizing n listed with
  | nil =>
    have hnone : ∀ names name, ¬ src.Lists [] names name := by simp [AssetSource.Lists]
    exact .pure ⟨List.forall_mem_nil _,
      hn.congr fun names name => (or_iff_left (hnone names name)).symm⟩
  | cons archetype rest ih =>
    have hall : src.Registers (archetype :: rest) ↔
        (∃ a, (src.archetype archetype).Answers a) ∧ src.Registers rest := List.forall_mem_cons
    have hfirst : Ensures (fun _ => True)
        (require (.archetypeNotFound group archetype) (src.archetype archetype))
        (src.archetype archetype).Answers fun _ => ¬ src.Registers (archetype :: rest) :=
      (require_steady (hsrc.archetype archetype) _).mono (fun _ ha => ha) fun _ hnone h =>
        hnone (hall.mp h).1
    refine hfirst.bind fun a ha => ?_
    refine (ih (hn.absorb a)).mono ?_ fun _ hrest h => hrest (hall.mp h).2
    rintro n' ⟨hrest, hn'⟩
    refine ⟨hall.mpr ⟨⟨a, ha⟩, hrest⟩, hn'.congr fun names name => ?_⟩
    rw [src.lists_cons (hsrc.archetype archetype).consistent ha, or_assoc]

/-- Something is collected under each of the names. -/
theorem collect_keys {α : Type} (f : String → String → Query σ α)
    (names : OrderedMap String String) :
    Ensures (fun _ => True) (collect f names)
      (fun m => ∀ name, m.contains name = names.contains name) fun _ => True := by
  have hone : ∀ e ∈ names.entries, Ensures (fun _ => True)
      (do return (e.1, ← f e.1 e.2) : Query σ (String × α)) (fun b => e.1 = b.1) fun _ => True :=
    fun e _ => (Ensures.any _).bind fun a _ => .pure rfl
  -- What is found for the names comes in their order, each under its name.
  refine (Ensures.mapM (P := fun e b => e.1 = b.1) hone).bind fun found hfound => .pure ?_
  intro name
  have hkeys : names.keys = found.map Prod.fst := by
    rw [← List.forall₂_eq_eq_eq]
    exact List.forall₂_map_left_iff.mpr (List.forall₂_map_right_iff.mpr hfound)
  rw [Bool.eq_iff_iff, OrderedMap.contains_ofList, ← hkeys, OrderedMap.mem_keys,
    OrderedMap.contains_eq_true]

/-- There is a copy for each name that is listed, and for no other one. -/
theorem copies_lists (src : AssetSource σ) (group : String) {n : NamedAssets}
    {listed : (Archetype → OrderedSet String) → String → Prop} (hn : n.Are listed) :
    Ensures (fun _ => True) (copies src group n) (AssetCopies.Are listed) fun _ => True := by
  refine (collect_keys _ _).bind fun _ ha => ?_
  refine (collect_keys _ _).bind fun _ hd => ?_
  refine (collect_keys _ _).bind fun _ hs => ?_
  refine (collect_keys _ _).bind fun _ hr => .pure ?_
  -- The keys of each kind are the names that were noted for it.
  constructor <;> intro name
  · rw [hd, hn.policyDefinitions]
  · rw [hs, hn.policySetDefinitions]
  · rw [ha, hn.policyAssignments]
  · rw [hr, hn.roleDefinitions]

/-- A catalog gives copies of the assets that the archetypes of a request list. -/
theorem assets_lists (hc : src.AnswersAs c) (req : GroupRequest) :
    Ensures (fun _ => True) (assets src req)
      (fun copies => copies.Original src ∧ copies.Are (c.Lists req.archetypes))
      fun _ => True := by
  refine (assets_ensures src.keeps_true req).and fun s hs => ?_
  have hlists := fun names name =>
    (Iff.of_eq (false_or _)).trans (hc.lists_iff s req.archetypes names name)
  have hnamed := (named_lists hc.steady req.id req.archetypes NamedAssets.are_empty).mono
    (fun _ hn => hn.2.congr hlists) fun _ _ => trivial
  exact hnamed.bind (fun n hn => copies_lists src req.id hn) s hs

end Query

/-! ### Copies -/

/-- The member is the original but for the identifier of its definition. -/
def SetMember.Repointed (m₀ m : SetMember) : Prop :=
  ∃ definitionId, m = { m₀ with policyDefinitionId := definitionId }

/-- `p` is `p₀` as a group carries it: with the identifier of the group, and with members that may
be pointed elsewhere. -/
def PolicySetDefinition.CarriedAs (p₀ : PolicySetDefinition) (group name : String)
    (p : PolicySetDefinition) : Prop :=
  ∃ members, List.Forall₂ SetMember.Repointed p₀.properties.members members ∧
    p = { p₀ with
      id := some (ResourceId.policySetDefinition group name)
      properties := { p₀.properties with members } }

/-- `a` is `a₀` as a group carries it: with the identifier, the scope and the location of the group,
if it has a location, and with a reference that may be pointed elsewhere. -/
def PolicyAssignment.CarriedAs (a₀ : PolicyAssignment) (group location name : String)
    (a : PolicyAssignment) : Prop :=
  ∃ definitionId, a = { a₀ with
    id := some (ResourceId.policyAssignment group name)
    location := a₀.location.map fun _ => location
    properties := { a₀.properties with
      scope := some (ResourceId.managementGroup group)
      policyDefinitionId := definitionId } }

/-- A role definition under a name and a role name, with the identifier and the scope of a group. -/
def RoleDefinition.at (r : RoleDefinition) (group name roleName : String) : RoleDefinition :=
  { r with
    name := name
    id := some (ResourceId.roleDefinition group name)
    properties := { r.properties with
      roleName := roleName
      assignableScopes := [ResourceId.managementGroup group] } }

/-- A role name that ends with a group, which is added where it does not. -/
def RoleDefinition.roleNameAt (r : RoleDefinition) (group : String) : String :=
  if Text.finishesWith s!" ({group})" r.properties.roleName then r.properties.roleName
  else r.properties.roleName ++ s!" ({group})"

/-- The role definition as a group carries it: under its own names, or under names of the group. -/
def RoleDefinition.carried (uniqueRoles : Bool) (r : RoleDefinition) (group name : String) :
    RoleDefinition :=
  if uniqueRoles then r.at group (uniqueRoleName group name) (r.roleNameAt group)
  else r.at group r.name r.properties.roleName

/-- The group carries what the archetypes of the request list, and each of its copies is the asset
of the catalog as the group carries it. Definitions and set definitions are those that the catalog
finds without a version. -/
structure Group.Carries (c : Catalog) (req : GroupRequest) (uniqueRoles : Bool) (g : Group) :
    Prop where
  id : g.id = req.id
  location : g.location = req.location
  policyDefinitions : ∀ name, g.policyDefinitions.contains name = true ↔
    c.Lists req.archetypes Archetype.policyDefinitions name
  policySetDefinitions : ∀ name, g.policySetDefinitions.contains name = true ↔
    c.Lists req.archetypes Archetype.policySetDefinitions name
  policyAssignments : ∀ name, g.policyAssignments.contains name = true ↔
    c.Lists req.archetypes Archetype.policyAssignments name
  roleDefinitions : ∀ name, g.roleDefinitions.contains name = true ↔
    c.Lists req.archetypes Archetype.roleDefinitions name
  policyDefinition : ∀ {name p}, g.policyDefinitions.get? name = some p →
    ∃ p₀, c.policyDefinition? name none = some p₀ ∧
      p = { p₀ with id := some (ResourceId.policyDefinition req.id name) }
  policySetDefinition : ∀ {name p}, g.policySetDefinitions.get? name = some p →
    ∃ p₀, c.policySetDefinition? name none = some p₀ ∧ p₀.CarriedAs req.id name p
  policyAssignment : ∀ {name a}, g.policyAssignments.get? name = some a →
    ∃ a₀, c.policyAssignments.get? name = some a₀ ∧ a₀.CarriedAs req.id req.location name a
  roleDefinition : ∀ {name r}, g.roleDefinitions.get? name = some r →
    ∃ r₀, c.roleDefinitions.get? name = some r₀ ∧ r = r₀.carried uniqueRoles req.id name

section Deployed

variable (owner? : ReferencedDefinition → Option String)

/-- A deployed member is the same but for the place of what it refers to. -/
theorem SetMember.repointed_deployed (m : SetMember) : m.Repointed (m.deployed owner?) := by
  unfold deployed
  split
  · exact ⟨_, rfl⟩
  · exact ⟨m.policyDefinitionId, rfl⟩

/-- A deployed set definition is carried at its group, with its members pointed anew. -/
theorem PolicySetDefinition.carriedAs_deployed (group name : String) (p : PolicySetDefinition) :
    p.CarriedAs group name (p.deployed owner? group name) := by
  refine ⟨_, ?_, rfl⟩
  rw [List.forall₂_map_right_iff, List.forall₂_same]
  exact fun m _ => m.repointed_deployed owner?

/-- A deployed assignment is carried at its group and its location. -/
theorem PolicyAssignment.carriedAs_deployed (g : Group) (name : String) (a : PolicyAssignment) :
    a.CarriedAs g.id g.location name (a.deployed owner? g name) := by
  unfold deployed
  split
  · exact ⟨_, rfl⟩
  · exact ⟨a.properties.policyDefinitionId, rfl⟩

/-- A deployed role definition is the carried one. -/
theorem RoleDefinition.deployed_eq_carried (uniqueRoles : Bool) (group name : String)
    (r : RoleDefinition) :
    r.deployed uniqueRoles group name = r.carried uniqueRoles group name := by
  unfold deployed Deployment.role carried
  -- Reading the two sides as equal by computation would work out the digest.
  split
  · simp only [Deployment.uniqueRole, Deployment.withSuffix, RoleDefinition.at, roleNameAt, *]
  · simp only [RoleDefinition.at, *]

/-- A prepared group carries what its copies are, once it is deployed. -/
theorem Group.carries_deployed (hc : src.AnswersAs c) {req : GroupRequest} (level : Nat)
    {copies : AssetCopies} (horiginal : copies.Original src)
    (hlisted : copies.Are (c.Lists req.archetypes)) (uniqueRoles : Bool) :
    ((Hierarchy.newGroup req level copies).deployed owner? uniqueRoles).Carries c req
      uniqueRoles := by
  unfold deployed
  constructor
  case id => rfl
  case location => rfl
  case policyDefinitions =>
    intro name
    rw [OrderedMap.contains_map]
    exact hlisted.policyDefinitions name
  case policySetDefinitions =>
    intro name
    rw [OrderedMap.contains_map]
    exact hlisted.policySetDefinitions name
  case policyAssignments =>
    intro name
    rw [OrderedMap.contains_map]
    exact hlisted.policyAssignments name
  case roleDefinitions =>
    intro name
    rw [OrderedMap.contains_map]
    exact hlisted.roleDefinitions name
  -- A copy is the deployed answer of the source, which is what the catalog holds.
  case policyDefinition =>
    intro name p hp
    rw [OrderedMap.get?_map] at hp
    obtain ⟨p₀, hp₀, rfl⟩ := Option.map_eq_some_iff.mp hp
    have hfound := (horiginal.policyDefinition hp₀).eq_some (hc.policyDefinition name none)
    exact ⟨p₀, hfound, rfl⟩
  case policySetDefinition =>
    intro name p hp
    rw [OrderedMap.get?_map] at hp
    obtain ⟨p₀, hp₀, rfl⟩ := Option.map_eq_some_iff.mp hp
    have hfound := (horiginal.policySetDefinition hp₀).eq_some (hc.policySetDefinition name none)
    exact ⟨p₀, hfound, p₀.carriedAs_deployed owner? req.id name⟩
  case policyAssignment =>
    intro name a ha
    rw [OrderedMap.get?_map] at ha
    obtain ⟨a₀, ha₀, rfl⟩ := Option.map_eq_some_iff.mp ha
    have hfound := (horiginal.policyAssignment ha₀).1.eq_some (hc.policyAssignment name)
    exact ⟨a₀, hfound, a₀.carriedAs_deployed owner? _ name⟩
  case roleDefinition =>
    intro name r hr
    rw [OrderedMap.get?_map] at hr
    obtain ⟨r₀, hr₀, rfl⟩ := Option.map_eq_some_iff.mp hr
    have hfound := (horiginal.roleDefinition hr₀).eq_some (hc.roleDefinition name)
    exact ⟨r₀, hfound, r₀.deployed_eq_carried uniqueRoles req.id name⟩

end Deployed

/-! ### What calls keep -/

/-- The part of an assignment that no default changes. -/
def PolicyAssignment.withoutParameters (a : PolicyAssignment) : PolicyAssignment :=
  { a with properties := { a.properties with parameters := {} } }

/-- The part of the assignment `name` of a group that a call does not change. -/
def Call.kept : Call → String → String → PolicyAssignment → PolicyAssignment
  | .add _, _, _, a => a
  | .addArchitecture _ _ _, _, _, a => a
  | .derive, _, _, a => a
  | .applyDefault _ _, _, _, a => a.withoutParameters
  | .modifyAssignment changedGroup changedName _, group, name, a =>
    if group = changedGroup ∧ name = changedName then a.frame else a

/-- The groups have the same copies, as far as `kept` shows assignments. -/
structure Group.SameCopies (kept : String → PolicyAssignment → PolicyAssignment) (g g' : Group) :
    Prop where
  policyDefinitions : g'.policyDefinitions = g.policyDefinitions
  policySetDefinitions : g'.policySetDefinitions = g.policySetDefinitions
  roleDefinitions : g'.roleDefinitions = g.roleDefinitions
  policyAssignments : ∀ name, (g'.policyAssignments.get? name).map (kept name) =
    (g.policyAssignments.get? name).map (kept name)

/-- Each group of `r` is in `r'`, with the same copies as far as `kept` shows assignments. -/
def Registry.KeepsCopies (kept : String → String → PolicyAssignment → PolicyAssignment)
    (r r' : Registry) : Prop :=
  ∀ id g, r.get? id = some g → ∃ g', r'.get? id = some g' ∧ g.SameCopies (kept id) g'

namespace Registry

variable {kept : String → String → PolicyAssignment → PolicyAssignment}

namespace KeepsCopies

/-- Nothing is lost where nothing changes. -/
theorem refl (r : Registry) : KeepsCopies kept r r :=
  fun _ g hg => ⟨g, hg, rfl, rfl, rfl, fun _ => rfl⟩

/-- What two calls keep is kept by both together. -/
theorem trans {r r' r'' : Registry} (h : KeepsCopies kept r r') (h' : KeepsCopies kept r' r'') :
    KeepsCopies kept r r'' := by
  intro id g hg
  obtain ⟨g', hg', hd, hs, hr, ha⟩ := h id g hg
  obtain ⟨g'', hg'', hd', hs', hr', ha'⟩ := h' id g' hg'
  exact ⟨g'', hg'', hd'.trans hd, hs'.trans hs, hr'.trans hr,
    fun name => (ha' name).trans (ha name)⟩

/-- Less is kept as well. -/
theorem mono {kept' : String → String → PolicyAssignment → PolicyAssignment} {r r' : Registry}
    (h : KeepsCopies kept r r') (view : PolicyAssignment → PolicyAssignment)
    (hview : ∀ id name a, view (kept id name a) = kept' id name a) : KeepsCopies kept' r r' := by
  intro id g hg
  obtain ⟨g', hg', hd, hs, hr, ha⟩ := h id g hg
  refine ⟨g', hg', hd, hs, hr, ?_⟩
  intro name
  have hmap := congrArg (Option.map view) (ha name)
  rw [Option.map_map, Option.map_map] at hmap
  simpa only [Function.comp_def, hview] using hmap

end KeepsCopies

/-- A change of one assignment keeps copies, if it keeps what is shown of this assignment. -/
theorem keepsCopies_modify (r : Registry) {group name : String}
    {f : PolicyAssignment → PolicyAssignment}
    (h : ∀ g a, r.get? group = some g → g.policyAssignments.get? name = some a →
      kept group name (f a) = kept group name a) :
    KeepsCopies kept r (r.modify group fun g => g.modifyAssignment name f) := by
  intro id g hg
  rw [OrderedMap.get?_modify, hg]
  split
  · rename_i hid
    obtain rfl := hid
    refine ⟨_, rfl, rfl, rfl, rfl, ?_⟩
    -- Of the assignments of the group, only the one under `name` is another.
    intro name'
    unfold Group.modifyAssignment
    rw [OrderedMap.get?_modify]
    split
    · rename_i hname
      obtain rfl := hname
      cases ha : g.policyAssignments.get? name' with
      | none => rfl
      | some a => exact congrArg some (h g a hg ha)
    · rfl
  · exact ⟨g, rfl, rfl, rfl, rfl, fun _ => rfl⟩

end Registry

namespace Hierarchy

open Registry (KeepsCopies)

/-- One more group keeps the copies of the others. -/
theorem settle_keepsCopies {h : Hierarchy} {g : Group} (hnew : h.groups.contains g.id = false) :
    KeepsCopies (fun _ _ a => a) h.groups (h.settle g).2.groups := by
  intro id g₀ hg₀
  have hne : id ≠ g.id := OrderedMap.ne_of_get? hg₀ hnew
  rw [get?_settle, if_neg hne, get?_link, if_neg hne, hg₀]
  -- The parent gets a child, and nothing else changes.
  split
  · exact ⟨noteChild g g₀, rfl, rfl, rfl, rfl, fun _ => rfl⟩
  · exact ⟨g₀, rfl, rfl, rfl, rfl, fun _ => rfl⟩

/-- A request keeps the copies that were there. -/
theorem add_keepsCopies {t : History} {h : Hierarchy} (req : GroupRequest)
    (ht : KeepsCopies (fun _ _ a => a) h.groups t.hierarchy.groups) (s : σ) :
    KeepsCopies (fun _ _ a => a) h.groups (t.step src (s, .add req)).hierarchy.groups := by
  refine History.invariant_add
    (P := fun t => KeepsCopies (fun _ _ a => a) h.groups t.hierarchy.groups) ?_ ht s
  intro t level copies ht hlevel _
  exact ht.trans (settle_keepsCopies (Registry.contains_of_level? hlevel))

/-- The requests for an architecture keep the copies that were there. -/
theorem addArchitecture_keepsCopies (src : AssetSource σ) (h : Hierarchy)
    (name externalParent location : String) (s : σ) :
    KeepsCopies (fun _ _ a => a) h.groups
      (h.addArchitecture src name externalParent location s).1.2.groups := by
  rw [addArchitecture_run]
  rcases (Query.require (.architectureNotFound name) (src.architecture name)).run s with
    ⟨e | a, s'⟩
  · exact .refl _
  -- The requests come one after another, and each one keeps what was there at first.
  · have hadd : ∀ p ∈ placementsOf (.external externalParent) a.roots, ∀ (t : History) (s : σ),
        KeepsCopies (fun _ _ a => a) h.groups t.hierarchy.groups →
          KeepsCopies (fun _ _ a => a) h.groups
            (t.step src (s, .add (requestFor location p.1 p.2))).hierarchy.groups :=
      fun p _ t s ht => add_keepsCopies _ ht s
    exact History.invariant_addAll
      (P := fun t => KeepsCopies (fun _ _ a => a) h.groups t.hierarchy.groups) name location _ hadd
      (t := ⟨h, []⟩) (KeepsCopies.refl _) s'

/-- To derive the grants keeps all copies. -/
theorem derive_keepsCopies (src : AssetSource σ) (h : Hierarchy) (s : σ) :
    KeepsCopies (fun _ _ a => a) h.groups (h.derive src s).1.2.groups := by
  rw [derive_run]
  rcases (Query.deriveAll src h.groups).run s with ⟨e | found, s'⟩
  · exact .refl _
  · -- Only the grants of a group are replaced.
    intro id g hg
    refine ⟨_, (OrderedMap.get?_map ..).trans (congrArg _ hg), ?_⟩
    split <;> exact ⟨rfl, rfl, rfl, fun _ => rfl⟩

/-- The parameters of a site are all that is written. -/
theorem fillSite_keepsCopies (v : Json) (r : Registry) (site : DefaultSite) :
    KeepsCopies (fun _ _ a => a.withoutParameters) r (fillSite v r site) :=
  r.keepsCopies_modify fun _ a _ _ =>
    PolicyAssignment.filled_keeps (fun _ _ => rfl) site.parameters.toList a

/-- A default keeps the copies but for the parameters of assignments. -/
theorem applyDefault_keepsCopies (src : AssetSource σ) (h : Hierarchy) (name : String) (v : Json)
    (s : σ) :
    KeepsCopies (fun _ _ a => a.withoutParameters) h.groups
      (h.applyDefault src name v s).1.2.groups := by
  rw [applyDefault_run]
  rcases (Query.allDefaultSites src h.groups name).run s with ⟨e | sites, s'⟩
  · exact .refl _
  · -- The sites are filled one after another, each in the registry that the last one left.
    dsimp only
    generalize h.groups = r
    induction sites generalizing r with
    | nil => exact .refl r
    | cons site rest ih => exact (fillSite_keepsCopies v r site).trans (ih (fillSite v r site))

/-- A change of an assignment keeps the other copies, and the frame of this one. -/
theorem modifyAssignment_keepsCopies (src : AssetSource σ) (h : Hierarchy) (group name : String)
    (change : AssignmentChange) (s : σ) :
    KeepsCopies (Call.modifyAssignment group name change).kept h.groups
      (h.modifyAssignment src group name change s).1.2.groups := by
  rw [modifyAssignment_run]
  rcases hrun : (changed src h.groups group name change).run s with ⟨e | a, s'⟩
  · exact .refl _
  · obtain ⟨⟨a₀, ha₀, rfl⟩, -⟩ :=
      (changed_ensures src (fun _ _ => trivial) fun _ _ => .any _).of_ok trivial hrun
    refine h.groups.keepsCopies_modify ?_
    intro g a₁ hg ha₁
    -- The new value is a change of the copy that is replaced.
    obtain rfl := Except.ok.inj (ha₀.symm.trans (assignmentCopy?_eq_ok.mpr ⟨g, hg, ha₁⟩))
    simp only [Call.kept, and_self, if_true]
    rfl

end Hierarchy

/-- A call keeps the copies of all groups, but for what a default or a modification changes. -/
theorem Call.keepsCopies (src : AssetSource σ) (call : Call) (h : Hierarchy) (s : σ) :
    h.groups.KeepsCopies call.kept (call.after src h s).groups := by
  cases call with
  | add req => exact Hierarchy.add_keepsCopies (t := ⟨h, []⟩) req (.refl _) s
  | addArchitecture name externalParent location =>
    exact h.addArchitecture_keepsCopies src name externalParent location s
  | derive => exact h.derive_keepsCopies src s
  | applyDefault name v => exact h.applyDefault_keepsCopies src name v s
  | modifyAssignment group name change =>
    exact h.modifyAssignment_keepsCopies src group name change s

/-- What a call keeps of an assignment has its frame. -/
theorem Call.frame_kept (call : Call) (group name : String) (a : PolicyAssignment) :
    (call.kept group name a).frame = a.frame := by
  cases call with
  | modifyAssignment changedGroup changedName change =>
    dsimp only [kept]
    split <;> rfl
  | _ => rfl

/-- After every run each group has its copies, with the same frames of assignments. -/
theorem Registry.keepsCopies_run (src : AssetSource σ) (calls : List (σ × Call)) (t : History) :
    t.hierarchy.groups.KeepsCopies (fun _ _ => PolicyAssignment.frame)
      (calls.foldl (History.step src) t).hierarchy.groups := by
  induction calls generalizing t with
  | nil => exact .refl _
  | cons call rest ih =>
    have hcall := (call.2.keepsCopies src t.hierarchy call.1).mono PolicyAssignment.frame
      call.2.frame_kept
    exact hcall.trans (ih (t.step src call))

namespace Sample

/-- A root with the two definitions and the assignment. -/
def owner : GroupRequest := ⟨"root", "Root", .external "tenant", "westeurope", false, ["owner"]⟩

end Sample

namespace History

/-- No call changes whether roles get names of their own. -/
theorem uniqueRoles_after (src : AssetSource σ) (uniqueRoles : Bool) (calls : List (σ × Call)) :
    (after src uniqueRoles calls).hierarchy.uniqueRoles = uniqueRoles :=
  invariant (P := fun t => t.hierarchy.uniqueRoles = uniqueRoles) rfl
    (fun _ _ _ _ h _ _ => h)
    (fun _ _ h hframe => (congrArg Hierarchy.uniqueRoles hframe).trans h) calls

/-- A group that is added with success is registered, and carries what its archetypes list. -/
theorem step_carries (hc : src.AnswersAs c) {t : History} (hlinked : t.hierarchy.groups.Linked)
    {req : GroupRequest} {s : σ} {g : Group} (hok : (t.hierarchy.add src req s).1.1 = .ok g) :
    g.Carries c req t.hierarchy.uniqueRoles ∧
      (t.step src (s, .add req)).hierarchy.groups.get? req.id = some g := by
  change _ ∧ (t.hierarchy.add src req s).1.2.groups.get? req.id = some g
  rw [Hierarchy.add_run] at hok ⊢
  rcases hrun : (Hierarchy.prepare src t.hierarchy.groups req).run s with ⟨e | g₀, s'⟩
  · rw [hrun] at hok
    cases hok
  · rw [hrun] at hok
    -- It was prepared from copies of what the archetypes list, and then deployed.
    obtain ⟨⟨level, copies, hlevel, ⟨horiginal, hlisted⟩, rfl⟩, -⟩ :=
      (Hierarchy.prepare_of_assets (Query.assets_lists hc req) _).of_ok trivial hrun
    obtain ⟨-, hdeployed, hget⟩ := Hierarchy.settle_ok (hlinked.link hlevel rfl) hok
    refine ⟨?_, hget⟩
    rw [hdeployed]
    exact Group.carries_deployed _ hc level horiginal hlisted t.hierarchy.uniqueRoles

/-- A group that is added with success over a catalog carries what its archetypes list.

It is registered. After all later calls, it has the same copies up to what modifications may change.
Each of these calls keeps the copies of all groups, up to what a call of its kind may change. -/
theorem add_carries (hc : src.AnswersAs c) (uniqueRoles : Bool) (calls : List (σ × Call))
    {req : GroupRequest} {s : σ} {g : Group}
    (hok : ((after src uniqueRoles calls).hierarchy.add src req s).1.1 = .ok g) :
    g.Carries c req uniqueRoles ∧
    (after src uniqueRoles (calls ++ [(s, .add req)])).hierarchy.groups.get? req.id = some g ∧
    ∀ later : List (σ × Call),
      let t := after src uniqueRoles (calls ++ (s, .add req) :: later)
      (∃ g', t.hierarchy.groups.get? req.id = some g' ∧
        g.SameCopies (fun _ => PolicyAssignment.frame) g') ∧
      ∀ s' (call : Call),
        t.hierarchy.groups.KeepsCopies call.kept (t.step src (s', call)).hierarchy.groups := by
  -- The calls after the request start from the state that it left.
  have hrest : ∀ later, after src uniqueRoles (calls ++ (s, .add req) :: later) =
      later.foldl (step src) ((after src uniqueRoles calls).step src (s, .add req)) := by
    intro later
    unfold after
    rw [List.foldl_append, List.foldl_cons]
  obtain ⟨hcarries, hget⟩ := step_carries hc (linked_after src uniqueRoles calls) hok
  rw [uniqueRoles_after] at hcarries
  refine ⟨hcarries, ?_, ?_⟩
  · rw [hrest]
    exact hget
  · intro later t
    refine ⟨?_, fun s' call => call.keepsCopies src t.hierarchy s'⟩
    have hlater := Registry.keepsCopies_run src later
      ((after src uniqueRoles calls).step src (s, .add req)) req.id g hget
    rwa [← hrest] at hlater

/-- The root carries its assignment, and a derivation leaves it there. -/
theorem add_carries_owner :
    ∃ g, ((after Sample.suiteCatalog.source true []).hierarchy.add
        Sample.suiteCatalog.source Sample.owner false).1.1 = .ok g ∧
      g.Carries Sample.suiteCatalog Sample.owner true ∧
      (∃ a, g.policyAssignments.get? "assign-suite" = some a ∧
        Sample.suiteAssignment.CarriedAs "root" "westeurope" "assign-suite" a) ∧
      ∃ g', (after Sample.suiteCatalog.source true
          [(false, .add Sample.owner), (false, .derive)]).hierarchy.groups.get? "root" = some g' ∧
        g.SameCopies (fun _ => PolicyAssignment.frame) g' := by
  have hsome : ((after Sample.suiteCatalog.source true []).hierarchy.add
      Sample.suiteCatalog.source Sample.owner false).1.1.toOption.isSome = true := by
    decide +kernel
  obtain ⟨g, hg⟩ := Option.isSome_iff_exists.mp hsome
  have hok := ok_of_toOption hg
  obtain ⟨hcarries, -, hlater⟩ :=
    add_carries Sample.suiteCatalog.source_answersAs true [] hok
  have hlists : Sample.suiteCatalog.Lists ["owner"] Archetype.policyAssignments "assign-suite" :=
    ⟨"owner", by simp, _, rfl, rfl⟩
  -- The archetype lists the assignment, so there is a copy of it.
  obtain ⟨a, ha⟩ :=
    OrderedMap.contains_eq_true.mp ((hcarries.policyAssignments "assign-suite").mpr hlists)
  obtain ⟨a₀, ha₀, hcarried⟩ := hcarries.policyAssignment ha
  have hassignment : a₀ = Sample.suiteAssignment := Option.some.inj (ha₀.symm.trans rfl)
  rw [hassignment] at hcarried
  exact ⟨g, hok, hcarries, ⟨a, ha, hcarried⟩, (hlater [(false, .derive)]).1⟩

end History

end Governance
