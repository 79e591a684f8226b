import Governance.Proofs.Catalog.Ranking

/-!
# `Governance.Proofs.Catalog.Loading`: catalogs and the order of additions

`Catalog.ofAdditions` makes additions one after another on the empty catalog, and then resolves
the overrides. An addition fills its place and nothing else. So the additions succeed exactly
when no two of them have the same place (`exists_foldlM_put_iff`), and then the catalog has in
each place the addition of this place (`at?_foldlM_put`). Neither of the two depends on the order.

`ofAdditions_perm` is the main result: additions that succeed in one order succeed in every order,
and every look-up by name, or by name and version, finds the same. A look-up without a version is
the exception, because among equal versions the one that came last stands first
(`first_of_equal_versions`). It finds the same in every order exactly when one version ranks above
all others. And if the versions of the name are in order, it finds versions that are equal in
this order.

The two tables with versions have the same proofs. `VersionTable` has what these use.
-/

set_option autoImplicit false

namespace Governance.Catalog

variable {c c' : Catalog} {as bs : List Addition}

/-! ### Additions one after another -/

/-- Additions are a run of calls when all succeed. -/
theorem after_of_foldlM_put (h : as.foldlM put c = .ok c') : c' = c.after (as.map .add) := by
  induction as generalizing c with
  | nil =>
    cases h
    rfl
  | cons a rest ih =>
    rw [List.foldlM_cons] at h
    obtain ⟨c₁, hput, hrest⟩ := bind_eq_ok.mp h
    -- An addition that succeeds is what its call leaves.
    have hcall : (c.call (.add a)).2 = c₁ := by
      rw [call_add, hput]
      rfl
    rw [ih hrest, ← hcall]
    rfl

/-- Additions succeed exactly when their places are free and different from each other. -/
theorem exists_foldlM_put_iff : (∃ c', as.foldlM put c = .ok c') ↔
    (as.map Addition.slot).Nodup ∧ ∀ a ∈ as, c.at? a.slot = none := by
  induction as generalizing c with
  | nil => simp [pure, Except.pure]
  | cons a rest ih =>
    simp only [List.foldlM_cons, bind_eq_ok, List.map_cons, List.nodup_cons, List.mem_map,
      List.forall_mem_cons]
    constructor
    · rintro ⟨c', c₁, hput, hrest⟩
      obtain ⟨hnodup, hfree⟩ := ih.mp ⟨c', hrest⟩
      obtain ⟨ha, hplaces⟩ := put_ok hput
      -- A place that is free after the first addition is another one, and it was free before.
      have hother : ∀ b ∈ rest, b.slot ≠ a.slot ∧ c.at? b.slot = none := fun b hb => by
        have hfound := hfree b hb
        rw [hplaces] at hfound
        split at hfound
        · cases hfound
        · exact ⟨‹_›, hfound⟩
      exact ⟨⟨fun ⟨b, hb, heq⟩ => (hother b hb).1 heq, hnodup⟩, ha, fun b hb => (hother b hb).2⟩
    · rintro ⟨⟨hother, hnodup⟩, ha, hfree⟩
      obtain ⟨c₁, hput⟩ := exists_put ha
      obtain ⟨c', hrest⟩ := ih.mpr ⟨hnodup, fun b hb => by
        rw [(put_ok hput).2, if_neg fun heq => hother ⟨b, hb, heq⟩]
        exact hfree b hb⟩
      exact ⟨c', c₁, hput, hrest⟩

/-- After additions, a place has the addition of this place, or what was there before. -/
theorem at?_foldlM_put (h : as.foldlM put c = .ok c') (s : Slot) (x : Addition) :
    c'.at? s = some x ↔ (x ∈ as ∧ x.slot = s) ∨ c.at? s = some x := by
  induction as generalizing c with
  | nil =>
    cases h
    simp
  | cons a rest ih =>
    rw [List.foldlM_cons] at h
    obtain ⟨c₁, hput, hrest⟩ := bind_eq_ok.mp h
    obtain ⟨hfree, hplaces⟩ := put_ok hput
    rw [ih hrest, hplaces, List.mem_cons]
    -- The first addition found its place free, so no later one can have taken it from there.
    by_cases hs : s = a.slot
    · subst hs
      rw [if_pos rfl, hfree]
      grind
    · rw [if_neg hs]
      grind

/-- Additions on the empty catalog are found in their places, and nothing else is found. -/
theorem at?_of_additions (h : as.foldlM put empty = .ok c) {s : Slot} {x : Addition} :
    c.at? s = some x ↔ x ∈ as ∧ x.slot = s := by
  rw [at?_foldlM_put h, or_iff_left]
  cases s <;> exact nofun

/-- Additions to the empty catalog keep archetypes and overrides apart. -/
theorem disjoint_of_additions (h : as.foldlM put empty = .ok c) : c.Disjoint :=
  after_of_foldlM_put h ▸ disjoint_after disjoint_empty _

/-- In a catalog that was made of additions, first entries are the highest where there is one. -/
theorem ranked_of_additions (h : as.foldlM put empty = .ok c) : c.Ranked :=
  after_of_foldlM_put h ▸ ranked_after ranked_empty _

/-- Additions that succeed in one order succeed in every order, and they fill the same places. -/
theorem foldlM_put_perm (hperm : as.Perm bs) (h : as.foldlM put empty = .ok c) :
    ∃ d, bs.foldlM put empty = .ok d ∧ ∀ s, c.at? s = d.at? s := by
  obtain ⟨hnodup, hfree⟩ := exists_foldlM_put_iff.mp ⟨c, h⟩
  obtain ⟨d, hd⟩ := exists_foldlM_put_iff.mpr
    ⟨(hperm.map _).nodup_iff.mp hnodup, fun b hb => hfree b (hperm.mem_iff.mpr hb)⟩
  refine ⟨d, hd, fun s => Option.ext fun x => ?_⟩
  rw [at?_of_additions h, at?_of_additions hd, hperm.mem_iff]

/-! ### Catalogs with the same places -/

section Places

variable {d : Catalog}

/-- Catalogs with the same places have the same assignments. -/
theorem policyAssignments_of_at? (h : ∀ s, c.at? s = d.at? s) :
    c.policyAssignments = d.policyAssignments :=
  OrderedMap.ext_get? fun name => Option.ext fun x => by
    rw [← at?_policyAssignment, ← at?_policyAssignment, h]

/-- Catalogs with the same places have the same role definitions. -/
theorem roleDefinitions_of_at? (h : ∀ s, c.at? s = d.at? s) :
    c.roleDefinitions = d.roleDefinitions :=
  OrderedMap.ext_get? fun name => Option.ext fun r => by
    rw [← at?_roleDefinition, ← at?_roleDefinition, h]

/-- Catalogs with the same places have the same architectures. -/
theorem architectures_of_at? (h : ∀ s, c.at? s = d.at? s) : c.architectures = d.architectures :=
  OrderedMap.ext_get? fun name => Option.ext fun x => by
    rw [← at?_architecture, ← at?_architecture, h]

/-- Catalogs with the same places have the same defaults. -/
theorem defaults_of_at? (h : ∀ s, c.at? s = d.at? s) : c.defaults = d.defaults :=
  OrderedMap.ext_get? fun name => Option.ext fun x => by rw [← at?_default, ← at?_default, h]

/-- Catalogs with the same places have the same archetypes. -/
theorem archetypes_of_at? (h : ∀ s, c.at? s = d.at? s) : c.archetypes = d.archetypes :=
  OrderedMap.ext_get? fun name => Option.ext fun x => by rw [← at?_archetype, ← at?_archetype, h]

/-- Catalogs with the same places have the same overrides, if no override has the name of an
archetype. -/
theorem overrides_of_at? (h : ∀ s, c.at? s = d.at? s) (hc : c.Disjoint) (hd : d.Disjoint) :
    c.overrides = d.overrides :=
  OrderedMap.ext_get? fun name => Option.ext fun o => by
    rw [← hc.at?_archetypeOverride, ← hd.at?_archetypeOverride, h]

/-- The overrides of the two are resolved alike. -/
theorem resolveEach_of_at? (h : ∀ s, c.at? s = d.at? s) (hc : c.Disjoint) (hd : d.Disjoint) :
    resolveEach d.archetypes d.overrides.entries =
      resolveEach c.archetypes c.overrides.entries := by
  rw [archetypes_of_at? h, overrides_of_at? h hc hd]

end Places

/-! ### Tables with versions -/

/-- A table whose assets have versions, with the additions that go into it and their places. -/
structure VersionTable (α : Type) where
  table : Catalog → OrderedMap String (Versions α)
  add : α → Addition
  slot : String → Option String → Slot
  name : α → String
  version : α → Option String
  slot_add : ∀ {a n v}, (add a).slot = slot n v ↔ name a = n ∧ version a = v
  exists_add : ∀ {x n v}, x.slot = slot n v → ∃ a, x = add a
  at?_slot : ∀ {c n v a}, c.at? (slot n v) = some (add a) ↔ versionAt? (table c) n v = some a
  addVersion_of_put : ∀ {c c' a}, c.put (add a) = .ok c' →
    ∃ kind, addVersion (table c) kind (name a) (version a) a = .ok (table c')
  table_resolveOverrides : ∀ c, table c.resolveOverrides.2 = table c
  ranked : ∀ {c}, c.Ranked → TableRanked (table c)

namespace VersionTable

/-- The policy definitions. -/
def policyDefinitions : VersionTable PolicyDefinition where
  table c := c.policyDefinitions
  add := .policyDefinition
  slot := .policyDefinition
  name p := p.name
  version := PolicyDefinition.version
  slot_add := by simp [Addition.slot]
  exists_add := by rintro ⟨⟩ <;> simp [Addition.slot]
  at?_slot := at?_policyDefinition
  addVersion_of_put h := by
    obtain ⟨m, hm, hc⟩ := bind_eq_ok.mp h
    cases hc
    exact ⟨_, hm⟩
  table_resolveOverrides _ := rfl
  ranked h := h.policyDefinitions

/-- The policy set definitions. -/
def policySetDefinitions : VersionTable PolicySetDefinition where
  table c := c.policySetDefinitions
  add := .policySetDefinition
  slot := .policySetDefinition
  name p := p.name
  version := PolicySetDefinition.version
  slot_add := by simp [Addition.slot]
  exists_add := by rintro ⟨⟩ <;> simp [Addition.slot]
  at?_slot := at?_policySetDefinition
  addVersion_of_put h := by
    obtain ⟨m, hm, hc⟩ := bind_eq_ok.mp h
    cases hc
    exact ⟨_, hm⟩
  table_resolveOverrides _ := rfl
  ranked h := h.policySetDefinitions

variable {α : Type} (T : VersionTable α) {name : String} {v : Option String} {a : α}

/-- The versions of a name among additions. -/
def Holds (as : List Addition) (name : String) (v : Option String) : Prop :=
  T.slot name v ∈ as.map Addition.slot

/-- What a look-up finds. -/
def find? (c : Catalog) (name : String) (v : Option String) : Option α :=
  ((T.table c).get? name).bind (·.find? v)

/-- What is found for a version is of this version. -/
theorem version_of_versionAt? (has : as.foldlM put empty = .ok c)
    (h : versionAt? (T.table c) name v = some a) : T.version a = v :=
  (T.slot_add.mp ((at?_of_additions has).mp (T.at?_slot.mpr h)).2).2

/-- A version of a name is found exactly if it was added. -/
theorem versionAt?_ne_none_iff (has : as.foldlM put empty = .ok c) :
    versionAt? (T.table c) name v ≠ none ↔ T.Holds as name v := by
  rw [Option.ne_none_iff_exists', Holds, List.mem_map]
  constructor
  · rintro ⟨a, ha⟩
    exact ⟨T.add a, (at?_of_additions has).mp (T.at?_slot.mpr ha)⟩
  · rintro ⟨x, hx, hslot⟩
    obtain ⟨a, rfl⟩ := T.exists_add hslot
    exact ⟨a, T.at?_slot.mp ((at?_of_additions has).mpr ⟨hx, hslot⟩)⟩

end VersionTable

/-! ### Look-ups -/

/-- The catalog that additions make. They are made one after another on the empty catalog, and
then the overrides are resolved. -/
def ofAdditions (as : List Addition) : Except CatalogError Catalog := do
  match (← as.foldlM put empty).resolveOverrides with
  | (.ok _, c) => .ok c
  | (.error e, _) => .error e

/-- A catalog is made of additions when all of them succeed and the overrides are resolved. -/
theorem ofAdditions_eq_ok : ofAdditions as = .ok c ↔
    ∃ c₀, as.foldlM put empty = .ok c₀ ∧ c₀.resolveOverrides = (.ok (), c) := by
  rw [ofAdditions, bind_eq_ok]
  refine exists_congr fun c₀ => and_congr_right fun _ => ?_
  rcases c₀.resolveOverrides with ⟨e | _, c'⟩ <;> simp

/-- Every order of the additions makes a catalog. It has the same places before the resolution and
the same archetypes after it. -/
theorem exists_ofAdditions (hperm : as.Perm bs) (has : as.foldlM put empty = .ok c)
    (hok : c.resolveOverrides.1 = .ok ()) : ∃ d, bs.foldlM put empty = .ok d ∧
      ofAdditions bs = .ok d.resolveOverrides.2 ∧ (∀ s, c.at? s = d.at? s) ∧
      c.resolveOverrides.2.archetypes = d.resolveOverrides.2.archetypes := by
  obtain ⟨d, hbs, hplaces⟩ := foldlM_put_perm hperm has
  have heach := resolveEach_of_at? hplaces (disjoint_of_additions has) (disjoint_of_additions hbs)
  exact ⟨d, hbs, ofAdditions_eq_ok.mpr ⟨d, hbs, Prod.ext ((congrArg Prod.fst heach).trans hok) rfl⟩,
    hplaces, (congrArg Prod.snd heach).symm⟩

/-- Two look-ups that find the same versions, and the same without a version as far as the order
of versions tells. `versions` are those under each name.

- `pinned`: the look-up of a version finds the same;
- `found`: the look-up without a version finds something in both or in none;
- `highest`: it finds the same when one version ranks above all others;
- `rank`: what it finds is equal in the order of versions, when the versions are in order. -/
structure SameVersions {α : Type} (version : α → Option String)
    (versions : String → Option String → Prop)
    (find find' : String → Option String → Option α) : Prop where
  pinned : ∀ name v, find name (some v) = find' name (some v)
  found : ∀ name, (find name none).isSome = (find' name none).isSome
  highest : ∀ name v, Version.IsHighest (versions name) v → find name none = find' name none
  rank : ∀ name p p', Version.Transitive (versions name) → find name none = some p →
    find' name none = some p' → Version.compare (version p) (version p') = .eq

/-- Two catalogs of the additions `as` that answer alike. -/
structure SameAnswers (as : List Addition) (c d : Catalog) : Prop where
  policyDefinition : SameVersions PolicyDefinition.version
    (fun name v => .policyDefinition name v ∈ as.map Addition.slot)
    c.policyDefinition? d.policyDefinition?
  policySetDefinition : SameVersions PolicySetDefinition.version
    (fun name v => .policySetDefinition name v ∈ as.map Addition.slot)
    c.policySetDefinition? d.policySetDefinition?
  policyAssignment : ∀ name, c.policyAssignments.get? name = d.policyAssignments.get? name
  roleDefinition : ∀ name, c.roleDefinitions.get? name = d.roleDefinitions.get? name
  archetype : ∀ name, c.archetypes.get? name = d.archetypes.get? name
  architecture : ∀ name, c.architectures.get? name = d.architectures.get? name
  default : ∀ name, c.defaults.get? name = d.defaults.get? name

/-- A look-up finds `a` in every order of the additions. -/
def FoundAlways {α : Type} (as : List Addition) (find : Catalog → Option α) (a : α) : Prop :=
  ∀ bs d, as.Perm bs → ofAdditions bs = .ok d → find d = some a

namespace VersionTable

variable {α : Type} (T : VersionTable α) {name : String} {a : α}

/-- Catalogs with the same places find the same versions. -/
theorem sameVersions {d : Catalog} (has : as.foldlM put empty = .ok c)
    (hbs : bs.foldlM put empty = .ok d) (h : ∀ s, c.at? s = d.at? s) :
    SameVersions T.version (T.Holds as) (T.find? c) (T.find? d) := by
  have hc : TableRanked (T.table c) := T.ranked (ranked_of_additions has)
  have hd : TableRanked (T.table d) := T.ranked (ranked_of_additions hbs)
  have hsame : ∀ name v, versionAt? (T.table c) name v = versionAt? (T.table d) name v :=
    fun name v => Option.ext fun a => by rw [← T.at?_slot, ← T.at?_slot, h]
  have hholds : ∀ name, (fun v => versionAt? (T.table c) name v ≠ none) = T.Holds as name :=
    fun name => funext fun v => propext (T.versionAt?_ne_none_iff has)
  have hholds' : ∀ name, (fun v => versionAt? (T.table d) name v ≠ none) = T.Holds as name := by
    simpa only [hsame] using hholds
  refine ⟨fun name v => hsame name (some v), fun name => ?_, fun name v hv => ?_,
    fun name p p' htrans hp hp' => ?_⟩
  · change (first? (T.table c) name).isSome = (first? (T.table d) name).isSome
    rw [Bool.eq_iff_iff, isSome_first?_iff, isSome_first?_iff]
    simp only [hsame]
  · change first? (T.table c) name = first? (T.table d) name
    rw [first?_of_isHighest hc ((hholds name).symm ▸ hv),
      first?_of_isHighest hd ((hholds' name).symm ▸ hv), hsame]
  · obtain ⟨v, hv, habove⟩ := exists_of_first? hc hp
    obtain ⟨v', hv', habove'⟩ := exists_of_first? hd hp'
    rw [T.version_of_versionAt? has hv, T.version_of_versionAt? hbs hv']
    -- Neither of the two ranks above the other one.
    have hle := habove ((hholds name).symm ▸ htrans) v' (by simp [hsame, hv'])
    have hge := habove' ((hholds' name).symm ▸ htrans) v (by simp [← hsame, hv])
    rw [Version.compare_swap v v'] at hge
    cases hcompare : Version.compare v v' with
    | lt => exact absurd hcompare hle
    | eq => rfl
    | gt => simp [hcompare] at hge

/-- What is found without a version in every order ranks above all other versions: any other one
can come last, and then it stands first unless it is below. -/
theorem isHighest_of_foundAlways (h : ofAdditions as = .ok c)
    (hfound : FoundAlways as (T.find? · name none) a) :
    Version.IsHighest (T.Holds as name) (T.version a) := by
  obtain ⟨c₀, has, hc⟩ := ofAdditions_eq_ok.mp h
  obtain ⟨hok, rfl⟩ := Prod.mk.inj hc
  have hfirst : first? (T.table c₀.resolveOverrides.2) name = some a := hfound as _ (.refl _) h
  rw [T.table_resolveOverrides] at hfirst
  obtain ⟨v, hv, -⟩ := exists_of_first? (T.ranked (ranked_of_additions has)) hfirst
  obtain rfl := T.version_of_versionAt? has hv
  refine ⟨(T.versionAt?_ne_none_iff has).mp (by simp [hv]), fun w hw hne => ?_⟩
  obtain ⟨x, hx, hslot⟩ := List.mem_map.mp hw
  obtain ⟨b, rfl⟩ := T.exists_add hslot
  obtain ⟨rfl, rfl⟩ := T.slot_add.mp hslot
  -- The same additions with `b` at the end.
  obtain ⟨before, after, rfl⟩ := List.append_of_mem hx
  have hperm : (before ++ T.add b :: after).Perm ((before ++ after) ++ [T.add b]) :=
    List.perm_middle.trans (List.perm_append_singleton _ _).symm
  obtain ⟨d, hbs, hd, -, -⟩ := exists_ofAdditions hperm has hok
  rw [List.foldlM_append] at hbs
  obtain ⟨d₀, hrest, hlast⟩ := bind_eq_ok.mp hbs
  rw [List.foldlM_cons] at hlast
  obtain ⟨d₁, hput, hnil⟩ := bind_eq_ok.mp hlast
  cases hnil
  obtain ⟨kind, hadd⟩ := T.addVersion_of_put hput
  have hstill : first? (T.table d.resolveOverrides.2) (T.name b) = some a := hfound _ _ hperm hd
  rw [T.table_resolveOverrides] at hstill
  have hlt : Version.compare (T.version b) (T.version a) = .lt := by
    by_contra hge
    exact first?_addVersion_ne hadd (fun hba => hne (hba ▸ rfl))
      (fun u hu => (T.version_of_versionAt? hrest hu).symm) hge hstill
  exact Std.OrientedCmp.gt_of_lt hlt

end VersionTable

/-! ### Any order -/

/-- Additions that make a catalog in one order make a catalog in every order, and the two answer
alike. A look-up without a version finds the same definition in every order only if the version of
this definition ranks above all others. -/
theorem ofAdditions_perm (h : ofAdditions as = .ok c) :
    (∀ bs, as.Perm bs → ∃ d, ofAdditions bs = .ok d ∧ SameAnswers as c d) ∧
    (∀ name p, FoundAlways as (·.policyDefinition? name none) p →
      Version.IsHighest (fun v => .policyDefinition name v ∈ as.map Addition.slot) p.version) ∧
    ∀ name p, FoundAlways as (·.policySetDefinition? name none) p →
      Version.IsHighest (fun v => .policySetDefinition name v ∈ as.map Addition.slot)
        p.version := by
  refine ⟨fun bs hperm => ?_,
    fun name p => VersionTable.policyDefinitions.isHighest_of_foundAlways h,
    fun name p => VersionTable.policySetDefinitions.isHighest_of_foundAlways h⟩
  obtain ⟨c₀, has, hc⟩ := ofAdditions_eq_ok.mp h
  obtain ⟨hok, rfl⟩ := Prod.mk.inj hc
  -- The other order leaves the same places. So all tables are the same but those of versions, in
  -- which the versions of one rank may have another order.
  obtain ⟨d, hbs, hd, hplaces, harchetypes⟩ := exists_ofAdditions hperm has hok
  exact ⟨_, hd, {
    policyDefinition := VersionTable.policyDefinitions.sameVersions has hbs hplaces
    policySetDefinition := VersionTable.policySetDefinitions.sameVersions has hbs hplaces
    policyAssignment := fun name => congrArg (·.get? name) (policyAssignments_of_at? hplaces)
    roleDefinition := fun name => congrArg (·.get? name) (roleDefinitions_of_at? hplaces)
    archetype := fun name => congrArg (·.get? name) harchetypes
    architecture := fun name => congrArg (·.get? name) (architectures_of_at? hplaces)
    default := fun name => congrArg (·.get? name) (defaults_of_at? hplaces) }⟩

end Governance.Catalog

/-! ### Two orders -/

namespace Governance

namespace Sample

/-- A version of the policy definition `p`. -/
def versionOfP (version : String) : PolicyDefinition :=
  ⟨"p", none, ResourceType.policyDefinition,
    ⟨none, none, none, none, some version, none, {}, .null⟩⟩

/-- Two versions of a policy definition, an archetype and an override of it. -/
def library : List Addition :=
  [.policyDefinition (versionOfP "1.9"), .archetype (.bare "plain"),
   .policyDefinition (versionOfP "1.10"), .archetypeOverride (sameAs "plain" "same")]

end Sample

namespace Catalog

/-- A library with the versions 1.9 and 1.10 of a definition, of which the second is the highest,
gives the same answers in every order. -/
theorem ofAdditions_perm_library :
    Version.IsHighest (fun v => .policyDefinition "p" v ∈ Sample.library.map Addition.slot)
      (some "1.10") ∧
    ∃ c, ofAdditions Sample.library = .ok c ∧
      ∀ bs, Sample.library.Perm bs →
        ∃ d, ofAdditions bs = .ok d ∧ SameAnswers Sample.library c d := by
  refine ⟨⟨by decide, fun w hw hne => ?_⟩, ?_⟩
  · have hversions : w = some "1.9" ∨ w = some "1.10" := by
      simpa [Sample.library, Addition.slot, Sample.versionOfP, PolicyDefinition.version] using hw
    -- As numbers 10 is above 9, although the text comes first.
    obtain rfl := hversions.resolve_right hne
    decide +kernel
  · have hok : (ofAdditions Sample.library).isOk = true := by decide +kernel
    cases h : ofAdditions Sample.library with
    | error e =>
      rw [h] at hok
      cases hok
    | ok c => exact ⟨c, rfl, (ofAdditions_perm h).1⟩

/-- The versions `1.0` and `01.0` are different and equal in the order of versions. A look-up
without a version finds the one that was added last. -/
theorem first_of_equal_versions :
    let found (as : List Addition) := (ofAdditions as).toOption.map fun c =>
      (c.policyDefinition? "p" none).map PolicyDefinition.version
    let v : Addition := .policyDefinition (Sample.versionOfP "1.0")
    let w : Addition := .policyDefinition (Sample.versionOfP "01.0")
    found [v, w] = some (some (some "01.0")) ∧ found [w, v] = some (some (some "1.0")) := by
  decide +kernel

end Catalog

end Governance
