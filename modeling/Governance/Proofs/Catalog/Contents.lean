import Governance.Catalog.Entry
import Governance.Proofs.Catalog.Overrides

/-!
# `Governance.Proofs.Catalog.Contents`: what a catalog holds, place by place

The tables of a catalog are seen as one table of places here. A place (`Slot`) is a kind and
a name. For policy definitions and set definitions it is also a version, or no version. An
archetype and an override of the same name have the same place, because neither may be added
where the other one is.

`Catalog.at?` gives what is in a place. All that the additions do can be said with it:

* `exists_put` / `put_ok`: an addition succeeds where its place is free, and only there. It
  fills its place, and no other place changes.
* `Disjoint`: no override has the name of an archetype. Additions and resolutions keep this.
  So a resolution never puts an archetype over another one (`archetypes_resolveOverrides`).
-/

set_option autoImplicit false

namespace Governance

/-! ### Versions of one name -/

namespace Versions

variable {α : Type} {vs : Versions α} {version : Option String} {a : α}

/-- What is there under a version, or without one. -/
def item? (vs : Versions α) (version : Option String) : Option α :=
  (vs.entries.find? fun e => e.1 == version).map Prod.snd

/-- A version is not there exactly if nothing is found for it. -/
theorem contains_eq_false : vs.contains version = false ↔ vs.item? version = none := by
  simp [contains, item?]

/-- An insertion at a free version changes the entry of this version only. -/
theorem item?_insert (h : vs.item? version = none) (version' : Option String) :
    (vs.insert version a).item? version' =
      if version' = version then some a else vs.item? version' := by
  have hsplit := List.takeWhile_append_dropWhile (p := isBelow version) (l := vs.entries)
  have hold : vs.entries.find? (fun e => e.1 == version') =
      ((vs.entries.takeWhile (isBelow version)).find? fun e => e.1 == version').or
        ((vs.entries.dropWhile (isBelow version)).find? fun e => e.1 == version') := by
    rw [← List.find?_append, hsplit]
  unfold item? at h ⊢
  rw [insert, List.find?_append, List.find?_cons]
  by_cases hv : version' = version
  · subst hv
    -- Nothing in front of the new entry has its version.
    rw [Option.map_eq_none_iff, hold, Option.or_eq_none_iff] at h
    simp [h.1]
  · have hne : ((version, a).1 == version') = false := beq_eq_false_iff_ne.mpr (Ne.symm hv)
    simp only [hne, if_neg hv, hold]

end Versions

/-- What one call adds to a catalog. -/
inductive Addition where
  | policyDefinition (p : PolicyDefinition)
  | policySetDefinition (p : PolicySetDefinition)
  | policyAssignment (a : PolicyAssignment)
  | roleDefinition (r : RoleDefinition)
  | archetype (a : Archetype)
  | archetypeOverride (o : ArchetypeOverride)
  | architecture (a : Architecture)
  | default (d : DefaultMapping)

/-- A place in a catalog. An archetype and an override of one name take the same place. -/
inductive Slot where
  | policyDefinition (name : String) (version : Option String)
  | policySetDefinition (name : String) (version : Option String)
  | policyAssignment (name : String)
  | roleDefinition (name : String)
  | archetype (name : String)
  | architecture (name : String)
  | default (name : String)
  deriving DecidableEq

/-- The place that an addition takes. -/
def Addition.slot : Addition → Slot
  | .policyDefinition p => .policyDefinition p.name p.version
  | .policySetDefinition p => .policySetDefinition p.name p.version
  | .policyAssignment a => .policyAssignment a.name
  | .roleDefinition r => .roleDefinition r.name
  | .archetype a => .archetype a.name
  | .archetypeOverride o => .archetype o.name
  | .architecture a => .architecture a.name
  | .default d => .default d.name

namespace Catalog

/-! ### One table -/

section Table

variable {α : Type} {kind : AssetKind} {name : String} {version : Option String} {a : α}

/-- An addition that succeeds found no entry of its name, and puts in its own. -/
theorem addNew_ok {m m' : OrderedMap String α} (h : addNew m kind name a = .ok m') :
    m.get? name = none ∧ m' = m.insert name a := by
  unfold addNew at h
  split at h
  · cases h
  · rename_i hfree
    cases h
    exact ⟨OrderedMap.contains_eq_false.mp (Bool.eq_false_iff.mpr hfree), rfl⟩

/-- Where a name is free, it can be taken. -/
theorem addNew_of_free {m : OrderedMap String α} (h : m.get? name = none) :
    addNew m kind name a = .ok (m.insert name a) := by
  rw [addNew, OrderedMap.contains_eq_false.mpr h]
  rfl

/-- What a table has under a name and a version. -/
def versionAt? (m : OrderedMap String (Versions α)) (name : String) (version : Option String) :
    Option α :=
  (m.get? name).bind (·.item? version)

/-- A version of a name is looked up among all versions of the name, of which there may be none. -/
theorem versionAt?_eq (m : OrderedMap String (Versions α)) (name : String)
    (version : Option String) :
    versionAt? m name version = ((m.get? name).getD .empty).item? version := by
  unfold versionAt?
  cases m.get? name <;> rfl

/-- An addition of a version that succeeds found it free, and puts it among the versions of its
name. -/
theorem addVersion_ok {m m' : OrderedMap String (Versions α)}
    (h : addVersion m kind name version a = .ok m') :
    versionAt? m name version = none ∧
      m' = m.insert name (((m.get? name).getD .empty).insert version a) := by
  unfold addVersion at h
  dsimp only at h
  split at h
  · cases h
  · rename_i hfree
    cases h
    rw [versionAt?_eq]
    exact ⟨Versions.contains_eq_false.mp (Bool.eq_false_iff.mpr hfree), rfl⟩

/-- Where a version of a name is free, it can be taken. -/
theorem addVersion_of_free {m : OrderedMap String (Versions α)}
    (h : versionAt? m name version = none) :
    addVersion m kind name version a =
      .ok (m.insert name (((m.get? name).getD .empty).insert version a)) := by
  rw [versionAt?_eq] at h
  rw [addVersion, Versions.contains_eq_false.mpr h]
  rfl

/-- After an addition its name finds it, and the other names find what they did. -/
theorem map_get?_addNew {m m' : OrderedMap String α} (h : addNew m kind name a = .ok m')
    (f : α → Addition) (name' : String) :
    (m'.get? name').map f = if name' = name then some (f a) else (m.get? name').map f := by
  obtain ⟨-, rfl⟩ := addNew_ok h
  split
  · rename_i hname
    rw [hname, OrderedMap.get?_insert_self, Option.map_some]
  · rename_i hname
    rw [OrderedMap.get?_insert_of_ne _ _ hname]

/-- After an addition its name and version find it, and all others find what they did. -/
theorem map_versionAt?_addVersion {m m' : OrderedMap String (Versions α)}
    (h : addVersion m kind name version a = .ok m') (f : α → Addition) (name' : String)
    (version' : Option String) :
    (versionAt? m' name' version').map f =
      if name' = name ∧ version' = version then some (f a)
      else (versionAt? m name' version').map f := by
  obtain ⟨hfree, rfl⟩ := addVersion_ok h
  by_cases hname : name' = name
  · -- The versions of the name have one more. Other names have the versions that they had.
    subst hname
    rw [versionAt?_eq, versionAt?_eq, OrderedMap.get?_insert_self, Option.getD_some,
      Versions.item?_insert (versionAt?_eq m _ _ ▸ hfree)]
    split <;> simp_all
  · rw [versionAt?, OrderedMap.get?_insert_of_ne _ _ hname, if_neg fun hc => hname hc.1]
    rfl

end Table

/-! ### All tables -/

/-- What is in a place. -/
def at? (c : Catalog) : Slot → Option Addition
  | .policyDefinition name version =>
    (versionAt? c.policyDefinitions name version).map .policyDefinition
  | .policySetDefinition name version =>
    (versionAt? c.policySetDefinitions name version).map .policySetDefinition
  | .policyAssignment name => (c.policyAssignments.get? name).map .policyAssignment
  | .roleDefinition name => (c.roleDefinitions.get? name).map .roleDefinition
  | .archetype name =>
    ((c.archetypes.get? name).map .archetype).or
      ((c.overrides.get? name).map .archetypeOverride)
  | .architecture name => (c.architectures.get? name).map .architecture
  | .default name => (c.defaults.get? name).map .default

/-- Adds to the table of its kind. -/
def put (c : Catalog) : Addition → Except CatalogError Catalog
  | .policyDefinition p => c.addPolicyDefinition p
  | .policySetDefinition p => c.addPolicySetDefinition p
  | .policyAssignment a => c.addPolicyAssignment a
  | .roleDefinition r => c.addRoleDefinition r
  | .archetype a => c.addArchetype a
  | .archetypeOverride o => c.addOverride o
  | .architecture a => c.addArchitecture a
  | .default d => c.addDefault d

variable {c c' : Catalog} {a : Addition}

/-- Two steps succeed if the first one does, and the second one does with its result. -/
theorem bind_eq_ok {ε α β : Type} {x : Except ε α} {f : α → Except ε β} {b : β} :
    x >>= f = .ok b ↔ ∃ a, x = .ok a ∧ f a = .ok b := by
  cases x with
  | error e => exact ⟨nofun, nofun⟩
  | ok a => exact ⟨fun h => ⟨a, rfl, h⟩, fun ⟨_, ha, hf⟩ => by cases ha; exact hf⟩

/-- An addition that another table guards. -/
theorem guarded_eq_ok {α : Type} {m : OrderedMap String α} {name : String} {e : CatalogError}
    {x : Except CatalogError Catalog} :
    (if m.contains name then .error e else x) = .ok c' ↔ m.get? name = none ∧ x = .ok c' := by
  cases hm : m.get? name <;> simp [OrderedMap.contains, hm]

/-- An addition that succeeds found its place free. It fills the place, and no other place
changes. -/
theorem put_ok (h : c.put a = .ok c') :
    c.at? a.slot = none ∧ ∀ s, c'.at? s = if s = a.slot then some a else c.at? s := by
  cases a with
  | policyDefinition p | policySetDefinition p =>
    obtain ⟨m, hm, hc⟩ := bind_eq_ok.mp h
    cases hc
    refine ⟨by simp [at?, Addition.slot, (addVersion_ok hm).1], fun s => ?_⟩
    cases s <;> simp [at?, Addition.slot, map_versionAt?_addVersion hm]
  | policyAssignment x | roleDefinition x | architecture x | default x =>
    obtain ⟨m, hm, hc⟩ := bind_eq_ok.mp h
    cases hc
    refine ⟨by simp [at?, Addition.slot, (addNew_ok hm).1], fun s => ?_⟩
    cases s <;> simp [at?, Addition.slot, map_get?_addNew hm]
  | archetype x =>
    obtain ⟨hfree, h⟩ := guarded_eq_ok.mp h
    obtain ⟨m, hm, hc⟩ := bind_eq_ok.mp h
    cases hc
    refine ⟨by simp [at?, Addition.slot, (addNew_ok hm).1, hfree], fun s => ?_⟩
    cases s <;> simp [at?, Addition.slot, map_get?_addNew hm]
    split <;> rfl
  | archetypeOverride o =>
    obtain ⟨hfree, h⟩ := guarded_eq_ok.mp h
    obtain ⟨m, hm, hc⟩ := bind_eq_ok.mp h
    cases hc
    refine ⟨by simp [at?, Addition.slot, (addNew_ok hm).1, hfree], fun s => ?_⟩
    cases s <;> simp [at?, Addition.slot, map_get?_addNew hm]
    -- The override is found because no archetype has its name.
    split
    · rename_i hname
      rw [hname, hfree]
      rfl
    · rfl

/-- An addition succeeds where its place is free. -/
theorem exists_put (h : c.at? a.slot = none) : ∃ c', c.put a = .ok c' := by
  -- Archetypes and overrides share their names, so both tables are looked at for either.
  cases a with
  | policyDefinition p | policySetDefinition p =>
    exact ⟨_, bind_eq_ok.mpr ⟨_, addVersion_of_free (Option.map_eq_none_iff.mp h), rfl⟩⟩
  | policyAssignment x | roleDefinition x | architecture x | default x =>
    exact ⟨_, bind_eq_ok.mpr ⟨_, addNew_of_free (Option.map_eq_none_iff.mp h), rfl⟩⟩
  | archetype x =>
    obtain ⟨harchetype, hoverride⟩ := Option.or_eq_none_iff.mp h
    exact ⟨_, guarded_eq_ok.mpr ⟨Option.map_eq_none_iff.mp hoverride,
      bind_eq_ok.mpr ⟨_, addNew_of_free (Option.map_eq_none_iff.mp harchetype), rfl⟩⟩⟩
  | archetypeOverride o =>
    obtain ⟨harchetype, hoverride⟩ := Option.or_eq_none_iff.mp h
    exact ⟨_, guarded_eq_ok.mpr ⟨Option.map_eq_none_iff.mp harchetype,
      bind_eq_ok.mpr ⟨_, addNew_of_free (Option.map_eq_none_iff.mp hoverride), rfl⟩⟩⟩

/-! ### Places and look-ups -/

/-- The place of a policy definition holds what its table has under name and version. -/
theorem at?_policyDefinition {name : String} {version : Option String} {p : PolicyDefinition} :
    c.at? (.policyDefinition name version) = some (.policyDefinition p) ↔
      versionAt? c.policyDefinitions name version = some p := by
  simp [at?]

/-- The place of a policy set definition holds what its table has under name and version. -/
theorem at?_policySetDefinition {name : String} {version : Option String}
    {p : PolicySetDefinition} :
    c.at? (.policySetDefinition name version) = some (.policySetDefinition p) ↔
      versionAt? c.policySetDefinitions name version = some p := by
  simp [at?]

/-- The place of an assignment holds what its table has under the name. -/
theorem at?_policyAssignment {name : String} {x : PolicyAssignment} :
    c.at? (.policyAssignment name) = some (.policyAssignment x) ↔
      c.policyAssignments.get? name = some x := by
  simp [at?]

/-- The place of a role definition holds what its table has under the name. -/
theorem at?_roleDefinition {name : String} {r : RoleDefinition} :
    c.at? (.roleDefinition name) = some (.roleDefinition r) ↔
      c.roleDefinitions.get? name = some r := by
  simp [at?]

/-- The place of an archetype holds the archetype that its table has under the name. -/
theorem at?_archetype {name : String} {x : Archetype} :
    c.at? (.archetype name) = some (.archetype x) ↔ c.archetypes.get? name = some x := by
  simp [at?]

/-- The place of an architecture holds what its table has under the name. -/
theorem at?_architecture {name : String} {x : Architecture} :
    c.at? (.architecture name) = some (.architecture x) ↔
      c.architectures.get? name = some x := by
  simp [at?]

/-- The place of a default holds what its table has under the name. -/
theorem at?_default {name : String} {d : DefaultMapping} :
    c.at? (.default name) = some (.default d) ↔ c.defaults.get? name = some d := by
  simp [at?]

/-! ### Archetypes and overrides -/

/-- No override has the name of an archetype. -/
def Disjoint (c : Catalog) : Prop :=
  ∀ name, c.archetypes.get? name = none ∨ c.overrides.get? name = none

/-- No name belongs to an archetype and to an override as well. -/
theorem Disjoint.elim (hdisjoint : c.Disjoint) {name : String} {x : Archetype}
    {o : ArchetypeOverride} (hx : c.archetypes.get? name = some x)
    (ho : c.overrides.get? name = some o) : False := by
  rcases hdisjoint name with h | h
  · rw [h] at hx
    cases hx
  · rw [h] at ho
    cases ho

/-- Where names are apart, the place of an archetype holds an override exactly if its table has it
under the name. -/
theorem Disjoint.at?_archetypeOverride (hdisjoint : c.Disjoint) {name : String}
    {o : ArchetypeOverride} :
    c.at? (.archetype name) = some (.archetypeOverride o) ↔ c.overrides.get? name = some o := by
  rcases hdisjoint name with h | h <;> simp [at?, h]

/-- The empty catalog has no name of two kinds. -/
theorem disjoint_empty : empty.Disjoint := fun _ => Or.inl rfl

/-- An addition keeps the names of archetypes and overrides apart. -/
theorem disjoint_put (hdisjoint : c.Disjoint) (h : c.put a = .ok c') : c'.Disjoint := by
  intro name
  -- An archetype is refused if its name is that of an override, and the other way round. The other
  -- additions leave both tables alone.
  cases a with
  | archetype x =>
    obtain ⟨hfree, h⟩ := guarded_eq_ok.mp h
    obtain ⟨m, hm, hc⟩ := bind_eq_ok.mp h
    cases hc
    obtain ⟨-, rfl⟩ := addNew_ok hm
    by_cases hname : name = x.name
    · exact Or.inr (hname ▸ hfree)
    · exact (hdisjoint name).imp_left (OrderedMap.get?_insert_of_ne _ _ hname).trans
  | archetypeOverride o =>
    obtain ⟨hfree, h⟩ := guarded_eq_ok.mp h
    obtain ⟨m, hm, hc⟩ := bind_eq_ok.mp h
    cases hc
    obtain ⟨-, rfl⟩ := addNew_ok hm
    by_cases hname : name = o.name
    · exact Or.inl (hname ▸ hfree)
    · exact (hdisjoint name).imp_right (OrderedMap.get?_insert_of_ne _ _ hname).trans
  | _ =>
    obtain ⟨m, -, hc⟩ := bind_eq_ok.mp h
    cases hc
    exact hdisjoint name

/-- Once overrides are resolved there are none, so no name is that of one. -/
theorem disjoint_resolveOverrides (c : Catalog) : c.resolveOverrides.2.Disjoint :=
  fun _ => Or.inr rfl

/-- A resolution keeps every archetype. -/
theorem archetypes_resolveOverrides (hdisjoint : c.Disjoint) {name : String} {x : Archetype}
    (h : c.archetypes.get? name = some x) :
    c.resolveOverrides.2.archetypes.get? name = some x := by
  rw [resolveOverrides_eq, get?_resolveEach, h]
  intro hname
  obtain ⟨o, ho⟩ := OrderedMap.mem_keys.mp hname
  exact hdisjoint.elim h ho

end Catalog

end Governance
