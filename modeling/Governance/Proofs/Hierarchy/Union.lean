import Governance.Proofs.Hierarchy.Copies
import Governance.Proofs.Hierarchy.Growth

/-!
# `Governance.Proofs.Hierarchy.Union`: only the union of archetypes matters

A request lists archetypes, and the group gets the assets that one of them lists. The order of the
list decides which archetype is named in an error, and what is asked first. It decides nothing else.

Two lists have the same union when the source has all archetypes of both or lacks some of each, and
when both list the same names of each kind (`AssetSource.SameUnion`). `sameUnion_of_mem` finds this
for lists with the same members, and `sameUnion_merge` for a list and the one archetype that its
archetypes are merged to.

`Query.assets_agree` is the main step: over a steady source, lists with the same union lead to the
same copies or to no copies. `Hierarchy.add_of_union` puts it together.
-/

set_option autoImplicit false

namespace Governance

variable {σ : Type} {src : AssetSource σ}

/-! ### Lists of archetypes -/

/-- The lists differ in no archetype that the source lacks and in no name that they list. -/
structure AssetSource.SameUnion (src : AssetSource σ) (archetypes archetypes' : List String) :
    Prop where
  registers : src.Registers archetypes ↔ src.Registers archetypes'
  policyDefinitions : ∀ name, src.Lists archetypes Archetype.policyDefinitions name ↔
    src.Lists archetypes' Archetype.policyDefinitions name
  policySetDefinitions : ∀ name, src.Lists archetypes Archetype.policySetDefinitions name ↔
    src.Lists archetypes' Archetype.policySetDefinitions name
  policyAssignments : ∀ name, src.Lists archetypes Archetype.policyAssignments name ↔
    src.Lists archetypes' Archetype.policyAssignments name
  roleDefinitions : ∀ name, src.Lists archetypes Archetype.roleDefinitions name ↔
    src.Lists archetypes' Archetype.roleDefinitions name

/-- The archetype has the names that one of the archetypes has. -/
theorem Archetype.contains_foldl_merge {names : Archetype → OrderedSet String}
    (hnames : ∀ a b : Archetype, names (a.merge b) = (names a).union (names b))
    (as : List Archetype) (a : Archetype) (name : String) :
    (names (as.foldl Archetype.merge a)).contains name = true ↔
      ∃ b ∈ a :: as, (names b).contains name = true := by
  induction as generalizing a with
  | nil => simp
  | cons b rest ih =>
    rw [List.foldl_cons, ih]
    simp [hnames, OrderedSet.contains_union, or_assoc]

namespace AssetSource

variable {archetypes archetypes' : List String}

/-- Neither the order of a list nor repetition changes its union. -/
theorem sameUnion_of_mem (src : AssetSource σ)
    (h : ∀ archetype, archetype ∈ archetypes ↔ archetype ∈ archetypes') :
    src.SameUnion archetypes archetypes' := by
  constructor <;> simp only [Registers, Lists, h, implies_true]

/-- Archetypes with answers are registered. -/
theorem registers_of_answers {as : List Archetype}
    (h : List.Forall₂ (fun name a => (src.archetype name).Answers a) archetypes as) :
    src.Registers archetypes := by
  induction h with
  | nil => exact List.forall_mem_nil _
  | cons ha _ ih => exact List.forall_mem_cons.mpr ⟨⟨_, ha⟩, ih⟩

/-- What archetypes list, by the answers of the source. -/
theorem lists_of_answers (hsrc : src.Consistent) {as : List Archetype}
    (h : List.Forall₂ (fun name a => (src.archetype name).Answers a) archetypes as)
    (names : Archetype → OrderedSet String) (name : String) :
    src.Lists archetypes names name ↔ ∃ a ∈ as, (names a).contains name = true := by
  induction h with
  | nil => simp [Lists]
  | cons ha _ ih => simp [src.lists_cons (hsrc.archetype _) ha, ih]

/-- The archetype that the archetypes of a list are merged to has their union by itself, under a
name of its own. -/
theorem sameUnion_merge (hsrc : src.Consistent) {a : Archetype} {as : List Archetype}
    (hall : List.Forall₂ (fun name a => (src.archetype name).Answers a) archetypes (a :: as))
    {merged : String} {m : Archetype} (hm : (src.archetype merged).Answers m)
    (hmerge : m = { as.foldl Archetype.merge a with name := m.name }) :
    src.SameUnion archetypes [merged] := by
  have hone : List.Forall₂ (fun name a => (src.archetype name).Answers a) [merged] [m] :=
    .cons hm .nil
  -- Merging is the union for each kind of names, so one argument serves all four.
  have hnames : ∀ names : Archetype → OrderedSet String,
      (∀ a b : Archetype, names (a.merge b) = (names a).union (names b)) →
      names m = names (as.foldl Archetype.merge a) →
      ∀ name, src.Lists archetypes names name ↔ src.Lists [merged] names name := by
    intro names hunion hsame name
    rw [lists_of_answers hsrc hall, lists_of_answers hsrc hone,
      ← Archetype.contains_foldl_merge hunion, ← hsame]
    simp
  exact {
    registers := iff_of_true (registers_of_answers hall) (registers_of_answers hone)
    policyDefinitions := hnames _ (fun _ _ => rfl) (by rw [hmerge])
    policySetDefinitions := hnames _ (fun _ _ => rfl) (by rw [hmerge])
    policyAssignments := hnames _ (fun _ _ => rfl) (by rw [hmerge])
    roleDefinitions := hnames _ (fun _ _ => rfl) (by rw [hmerge]) }

end AssetSource

/-! ### Copies -/

/-- The same names of each kind, perhaps noted for other archetypes. -/
structure NamedAssets.SameNames (n n' : NamedAssets) : Prop where
  policyDefinitions : n.policyDefinitions.keys = n'.policyDefinitions.keys
  policySetDefinitions : n.policySetDefinitions.keys = n'.policySetDefinitions.keys
  policyAssignments : n.policyAssignments.keys = n'.policyAssignments.keys
  roleDefinitions : n.roleDefinitions.keys = n'.roleDefinitions.keys

namespace Query

/-! A copy does not depend on the archetype that it is made for: this one shows in errors only. -/

/-- The check of a member agrees for both archetypes. They differ in the message only. -/
theorem checkMember_agree (hsrc : src.Steady) (group archetype archetype' assignment set : String)
    (m : SetMember) :
    Agree (checkMember src group archetype assignment set m)
      (checkMember src group archetype' assignment set m) := by
  refine (memberName_steady group set m).agree.bind fun name => ?_
  refine (Agree.require (hsrc.policyDefinition _ _) _ _).bind fun p => ?_
  split
  · exact .throw _ _
  · exact .pure _

/-- The copy of an assignment agrees for both archetypes. -/
theorem assignmentCopy_agree (hsrc : src.Steady) (group name archetype archetype' : String) :
    Agree (assignmentCopy src group name archetype)
      (assignmentCopy src group name archetype') := by
  refine (Agree.require (hsrc.policyAssignment _) _ _).bind fun a => ?_
  refine Agree.bind ?_ fun _ => .pure a
  refine (target_steady group a.name a).agree.bind fun t => ?_
  cases t with
  | definition name => exact .pure _
  | setDefinition set =>
    refine (Agree.require (hsrc.policySetDefinition _ _) _ _).bind fun p => ?_
    exact .forM (fun m => checkMember_agree hsrc group archetype archetype' a.name set m) _

/-- What is collected under the same names is the same. -/
theorem collect_agree {α : Type} {f : String → String → Query σ α}
    (h : ∀ name archetype archetype', Agree (f name archetype) (f name archetype'))
    {names names' : OrderedMap String String} (hkeys : names.keys = names'.keys) :
    Agree (collect f names) (collect f names') := by
  have hentries : List.Forall₂ (fun e e' : String × String => e.1 = e'.1) names.entries
      names'.entries := by
    rw [OrderedMap.keys, OrderedMap.keys, ← List.forall₂_eq_eq_eq] at hkeys
    exact List.forall₂_map_right_iff.mp (List.forall₂_map_left_iff.mp hkeys)
  refine (Agree.mapM (hentries.imp fun e e' he => ?_)).bind fun found => .pure _
  rw [← he]
  exact (h e.1 e.2 e'.2).bind fun a => .pure _

/-- The copies for the same names agree. -/
theorem copies_agree (hsrc : src.Steady) (group : String) {n n' : NamedAssets}
    (h : n.SameNames n') : Agree (copies src group n) (copies src group n') := by
  -- The four kinds are collected one after another, the assignments first.
  refine (collect_agree (assignmentCopy_agree hsrc group) h.policyAssignments).bind fun _ => ?_
  refine (collect_agree (fun name _ _ => .require (hsrc.policyDefinition name none) _ _)
    h.policyDefinitions).bind fun _ => ?_
  refine (collect_agree (fun name _ _ => .require (hsrc.policySetDefinition name none) _ _)
    h.policySetDefinitions).bind fun _ => ?_
  exact (collect_agree (fun name _ _ => .require (hsrc.roleDefinition name) _ _)
    h.roleDefinitions).bind fun _ => .pure _

/-- Lists with the same union name the same assets, or neither of them names any. -/
theorem named_sameNames (hsrc : src.Steady) (group : String) {archetypes archetypes' : List String}
    (h : src.SameUnion archetypes archetypes') (s s' : σ) :
    (∃ n n' t t', (named src group .empty archetypes).run s = (.ok n, t) ∧
      (named src group .empty archetypes').run s' = (.ok n', t') ∧ n.SameNames n') ∨
    ∃ e e' t t', (named src group .empty archetypes).run s = (.error e, t) ∧
      (named src group .empty archetypes').run s' = (.error e', t') := by
  have hnamed := named_lists hsrc group archetypes NamedAssets.are_empty
  have hnamed' := named_lists hsrc group archetypes' NamedAssets.are_empty
  rcases hs : (named src group .empty archetypes).run s with ⟨e | n, t⟩ <;>
    rcases hs' : (named src group .empty archetypes').run s' with ⟨e' | n', t'⟩
  -- An answer shows that the source has all archetypes, and an error that it lacks one.
  · exact .inr ⟨e, e', t, t', rfl, rfl⟩
  · exact absurd (h.registers.mpr (hnamed'.of_ok trivial hs').1.1) (hnamed.of_error trivial hs).1
  · exact absurd (h.registers.mp (hnamed.of_ok trivial hs).1.1) (hnamed'.of_error trivial hs').1
  · obtain ⟨⟨-, hn⟩, -⟩ := hnamed.of_ok trivial hs
    obtain ⟨⟨-, hn'⟩, -⟩ := hnamed'.of_ok trivial hs'
    simp only [false_or] at hn hn'
    refine .inl ⟨n, n', t, t', rfl, rfl, ?_⟩
    constructor <;> refine OrderedMap.keys_eq_of_contains fun name => ?_
    · rw [hn.policyDefinitions, hn'.policyDefinitions, h.policyDefinitions]
    · rw [hn.policySetDefinitions, hn'.policySetDefinitions, h.policySetDefinitions]
    · rw [hn.policyAssignments, hn'.policyAssignments, h.policyAssignments]
    · rw [hn.roleDefinitions, hn'.roleDefinitions, h.roleDefinitions]

/-- Lists with the same union lead to the same copies, or both to none. -/
theorem assets_agree (hsrc : src.Steady) (req : GroupRequest) {archetypes : List String}
    (h : src.SameUnion req.archetypes archetypes) :
    Agree (assets src req) (assets src { req with archetypes }) := by
  intro s s'
  unfold assets
  rw [run_bind, run_bind]
  obtain ⟨n, n', t, t', hs, hs', hsame⟩ | ⟨e, e', t, t', hs, hs'⟩ :=
    named_sameNames hsrc req.id h s s'
  · rw [hs, hs']
    exact copies_agree hsrc req.id hsame t t'
  · rw [hs, hs']
    rfl

end Query

/-! ### Additions -/

namespace Hierarchy

/-- Both additions fail or both succeed with the same group, and they leave the same hierarchy. -/
def SameEffect (x x' : Except HierarchyError Group × Hierarchy) : Prop :=
  x.1.toOption = x'.1.toOption ∧ x.2 = x'.2

/-- An addition depends on the union of the archetypes. -/
theorem add_sameEffect (hsrc : src.Steady) (h : Hierarchy) (req : GroupRequest)
    {archetypes : List String} (hunion : src.SameUnion req.archetypes archetypes) (s s' : σ) :
    SameEffect (h.add src req s).1 (h.add src { req with archetypes } s').1 := by
  have hgives : src.Gives fun req => ((Query.assets src req).run s).1 :=
    fun req t => Query.assets_steady hsrc req t s
  rw [add_eq_place hgives, add_eq_place hgives]
  unfold place
  cases level? h.groups req.id req.parent with
  | error e => exact ⟨rfl, rfl⟩
  | ok level =>
    dsimp only
    obtain ⟨c, t, t', hs, hs'⟩ | ⟨e, e', t, t', hs, hs'⟩ :=
      (Query.assets_agree hsrc req hunion).cases s s
    · -- The group is made of the copies, and the archetypes are no part of it.
      rw [hs, hs']
      exact ⟨rfl, rfl⟩
    · rw [hs, hs']
      exact ⟨rfl, rfl⟩

/-- Only the union of the archetypes of a request matters.

Another order or repetition of the archetypes has the same effect. If the source has all of them, so
has a request for the one archetype that they are merged to, whatever the name of this one. -/
theorem add_of_union (hsrc : src.Steady) (h : Hierarchy) (req : GroupRequest) (s s' : σ) :
    (∀ archetypes, (∀ archetype, archetype ∈ req.archetypes ↔ archetype ∈ archetypes) →
      SameEffect (h.add src req s).1 (h.add src { req with archetypes } s').1) ∧
    ∀ a as merged m,
      List.Forall₂ (fun name a => (src.archetype name).Answers a) req.archetypes (a :: as) →
      (src.archetype merged).Answers m →
      m = { as.foldl Archetype.merge a with name := m.name } →
      SameEffect (h.add src req s).1 (h.add src { req with archetypes := [merged] } s').1 :=
  ⟨fun _ hmem => add_sameEffect hsrc h req (src.sameUnion_of_mem hmem) s s',
    fun _ _ _ _ hall hm hmerge =>
      add_sameEffect hsrc h req (AssetSource.sameUnion_merge hsrc.consistent hall hm hmerge) s s'⟩

end Hierarchy

namespace Sample

/-- The archetype `holder` of the catalog. -/
def holder : Archetype := ⟨"holder", .ofList ["audit"], {}, {}, {}⟩

/-- The archetype `user` of the catalog. -/
def user : Archetype := ⟨"user", {}, {}, .ofList ["assign-audit"], {}⟩

/-- The names of `holder` and of `user` in one archetype. -/
def both : Archetype := ⟨"both", .ofList ["audit"], {}, .ofList ["assign-audit"], {}⟩

/-- The catalog with `both` as one more archetype. -/
def mergedCatalog : Catalog :=
  { catalog with archetypes := catalog.archetypes.insert "both" both }

/-- A root with `user` and `holder`, the first of them twice. -/
def repeated : GroupRequest :=
  ⟨"root", "Root", .external "tenant", "westeurope", false, ["user", "holder", "user"]⟩

end Sample

namespace Hierarchy

/-- The root is added in all three ways. -/
theorem add_of_union_both :
    Sample.mergedCatalog.source.Steady ∧
    (∀ archetype, archetype ∈ Sample.repeated.archetypes ↔ archetype ∈ ["holder", "user"]) ∧
    List.Forall₂ (fun name a => (Sample.mergedCatalog.source.archetype name).Answers a)
      Sample.repeated.archetypes [Sample.user, Sample.holder, Sample.user] ∧
    (Sample.mergedCatalog.source.archetype "both").Answers Sample.both ∧
    Sample.both = { [Sample.holder, Sample.user].foldl Archetype.merge Sample.user with
      name := Sample.both.name } ∧
    let added (archetypes : List String) := ((Hierarchy.empty true).add Sample.mergedCatalog.source
      { Sample.repeated with archetypes } false).1
    SameEffect (added Sample.repeated.archetypes) (added ["holder", "user"]) ∧
      SameEffect (added Sample.repeated.archetypes) (added ["both"]) ∧
      (added Sample.repeated.archetypes).1.toOption.isSome = true := by
  have hsrc := Sample.mergedCatalog.source_answersAs.steady
  have hmem : ∀ archetype,
      archetype ∈ Sample.repeated.archetypes ↔ archetype ∈ ["holder", "user"] := by
    simp only [Sample.repeated, List.mem_cons, List.not_mem_nil]
    tauto
  have hanswers : ∀ name a, Sample.mergedCatalog.archetypes.get? name = some a →
      (Sample.mergedCatalog.source.archetype name).Answers a :=
    fun name _ ha => ⟨false, congrArg Except.ok ha⟩
  have hall : List.Forall₂ (fun name a => (Sample.mergedCatalog.source.archetype name).Answers a)
      Sample.repeated.archetypes [Sample.user, Sample.holder, Sample.user] :=
    .cons (hanswers "user" _ rfl) (.cons (hanswers "holder" _ rfl)
      (.cons (hanswers "user" _ rfl) .nil))
  have hboth := hanswers "both" Sample.both rfl
  -- The archetype `both` is the merge of the three, apart from its name.
  have hmerge : Sample.both = { [Sample.holder, Sample.user].foldl Archetype.merge Sample.user with
      name := Sample.both.name } := by
    decide +kernel
  obtain ⟨horder, hmerged⟩ := add_of_union hsrc (.empty true) Sample.repeated false false
  have hadded : ((Hierarchy.empty true).add Sample.mergedCatalog.source
      Sample.repeated false).1.1.toOption.isSome = true := by
    decide +kernel
  exact ⟨hsrc, hmem, hall, hboth, hmerge, horder _ hmem, hmerged _ _ _ _ hall hboth hmerge, hadded⟩

end Hierarchy

end Governance
