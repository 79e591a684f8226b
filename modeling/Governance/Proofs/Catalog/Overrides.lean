import Governance.Catalog.Basic
import Governance.Proofs.Order.Map

/-!
# `Governance.Proofs.Catalog.Overrides`: what becomes of pending overrides

`Catalog.resolveOverrides` takes all pending overrides out of the catalog, and then resolves
one after another. At the first one with an unknown base it stops, and puts none of them
back. So the pending overrides fall into three groups when a resolution fails (`FailsAt`):
those that are archetypes now, the one that failed, and those that were not looked at.

* `makes_of_resolveOverrides`: a resolution that succeeds makes an archetype of every pending
  override.
* `exists_failsAt`: a resolution that fails has such three groups.
* `loses_of_resolveOverrides`: the overrides of the last two groups are lost. Nothing is made
  of them, and nothing is pending any more. That does not change when the missing bases are
  added and the overrides are resolved again. The second resolution succeeds.

`orphan_lost` is a catalog for which this happens.
-/

set_option autoImplicit false

namespace Governance

namespace Catalog

/-! ### One override after another -/

/-- Overrides are resolved one after another, up to the first that fails. -/
theorem resolveEach_append (m : OrderedMap String Archetype)
    (l l' : List (String × ArchetypeOverride)) :
    resolveEach m (l ++ l') = match resolveEach m l with
      | (.ok _, m') => resolveEach m' l'
      | (.error e, m') => (.error e, m') := by
  induction l generalizing m with
  | nil => rfl
  | cons entry rest ih =>
    obtain ⟨name, o⟩ := entry
    rw [List.cons_append, resolveEach, resolveEach]
    -- Both sides look for the base of the first override in `m`.
    split
    · rfl
    · exact ih _

/-- A failure is that of one override, after all before it were resolved. -/
theorem resolveEach_error {m m' : OrderedMap String Archetype}
    {l : List (String × ArchetypeOverride)} {e : CatalogError}
    (h : resolveEach m l = (.error e, m')) :
    ∃ done name o rest, l = done ++ (name, o) :: rest ∧ resolveEach m done = (.ok (), m') ∧
      m'.get? o.base = none ∧ e = .unknownBaseArchetype name o.base := by
  induction l generalizing m with
  | nil => cases h
  | cons entry rest ih =>
    obtain ⟨name, o⟩ := entry
    rw [resolveEach] at h
    split at h
    · rename_i hbase
      cases h
      -- The first override fails, before any was resolved.
      exact ⟨[], name, o, rest, rfl, rfl, hbase, rfl⟩
    · rename_i base hbase
      obtain ⟨done, name', o', rest', rfl, hdone, hnone, he⟩ := ih h
      -- It was resolved, and the failure is one of the rest.
      refine ⟨(name, o) :: done, name', o', rest', rfl, ?_, hnone, he⟩
      rw [resolveEach, hbase]
      exact hdone

/-- Other names than those of the overrides keep what is under them. -/
theorem get?_resolveEach {m : OrderedMap String Archetype}
    {l : List (String × ArchetypeOverride)} {name : String} (h : name ∉ l.map Prod.fst) :
    (resolveEach m l).2.get? name = m.get? name := by
  induction l generalizing m with
  | nil => rfl
  | cons entry rest ih =>
    obtain ⟨name', o⟩ := entry
    rw [List.map_cons, List.mem_cons, not_or] at h
    rw [resolveEach]
    split
    · rfl
    · rw [ih h.2, OrderedMap.get?_insert_of_ne _ _ h.1]

/-- Resolving `l` against `m` leads to `m'`, where `o` made what is under `name`: of the archetype
that was under the name of its base when the overrides before it were resolved. -/
def Makes (m : OrderedMap String Archetype) (l : List (String × ArchetypeOverride))
    (m' : OrderedMap String Archetype) (name : String) (o : ArchetypeOverride) : Prop :=
  ∃ before after m₁ base, l = before ++ (name, o) :: after ∧
    resolveEach m before = (.ok (), m₁) ∧ m₁.get? o.base = some base ∧
    m'.get? name = some (o.apply base)

/-- Overrides that are all resolved make an archetype each. -/
theorem makes_of_resolveEach {m m' : OrderedMap String Archetype}
    {l : List (String × ArchetypeOverride)} (h : resolveEach m l = (.ok (), m'))
    (hnodup : (l.map Prod.fst).Nodup) {name : String} {o : ArchetypeOverride}
    (ho : (name, o) ∈ l) : Makes m l m' name o := by
  obtain ⟨before, after, rfl⟩ := List.append_of_mem ho
  rw [resolveEach_append] at h
  split at h
  · rename_i m₁ hbefore
    rw [resolveEach] at h
    split at h
    · cases h
    · rename_i base hbase
      refine ⟨before, after, m₁, base, rfl, hbefore, hbase, ?_⟩
      -- No later override has the name, so the archetype stays.
      have hname : name ∉ after.map Prod.fst := by
        rw [List.map_append, List.map_cons, List.nodup_append] at hnodup
        exact (List.nodup_cons.mp hnodup.2.1).1
      have hm' : (resolveEach (m₁.insert name (o.apply base)) after).2 = m' := by rw [h]
      rw [← hm', get?_resolveEach hname, OrderedMap.get?_insert_self]
  · cases h

/-! ### The overrides of a catalog -/

variable {c c' : Catalog} {e : CatalogError}

/-- A resolution takes the overrides out of the catalog, and leaves the archetypes that it has made.
-/
theorem resolveOverrides_eq (c : Catalog) :
    c.resolveOverrides = ((resolveEach c.archetypes c.overrides.entries).1,
      { c with
        archetypes := (resolveEach c.archetypes c.overrides.entries).2
        overrides := {} }) :=
  rfl

/-- Without pending overrides there is nothing to resolve. -/
theorem resolveOverrides_of_empty (h : c.overrides = {}) : c.resolveOverrides = (.ok (), c) := by
  rw [resolveOverrides_eq, h]
  cases c
  cases h
  rfl

/-- A resolution that succeeds makes an archetype of every pending override. -/
theorem makes_of_resolveOverrides (h : c.resolveOverrides = (.ok (), c')) {name : String}
    {o : ArchetypeOverride} (ho : c.overrides.get? name = some o) :
    Makes c.archetypes c.overrides.entries c'.archetypes name o := by
  obtain ⟨hok, rfl⟩ := Prod.mk.inj h
  exact makes_of_resolveEach (Prod.ext hok rfl) c.overrides.nodup_keys
    (OrderedMap.get?_eq_some_iff.mp ho)

/-- The resolution of the overrides of `c` fails with `e` at the override `o`, and leaves `c'`.

- `entries`: `done` are the overrides before `o`, and `rest` are those behind it;
- `error`, `base`: there is no archetype under the name of the base of `o`;
- `resolved`: the overrides before `o` were resolved;
- `taken`: no override is pending any more. -/
structure FailsAt (c c' : Catalog) (e : CatalogError) (done : List (String × ArchetypeOverride))
    (name : String) (o : ArchetypeOverride) (rest : List (String × ArchetypeOverride)) :
    Prop where
  entries : c.overrides.entries = done ++ (name, o) :: rest
  error : e = .unknownBaseArchetype name o.base
  base : c'.archetypes.get? o.base = none
  resolved : resolveEach c.archetypes done = (.ok (), c'.archetypes)
  taken : c' = { c with archetypes := c'.archetypes, overrides := {} }

/-- A resolution that fails does so at one of the pending overrides. -/
theorem exists_failsAt (h : c.resolveOverrides = (.error e, c')) :
    ∃ done name o rest, FailsAt c c' e done name o rest := by
  obtain ⟨herror, rfl⟩ := Prod.mk.inj h
  have heach : resolveEach c.archetypes c.overrides.entries =
      (.error e, (resolveEach c.archetypes c.overrides.entries).2) := Prod.ext herror rfl
  obtain ⟨done, name, o, rest, hentries, hdone, hbase, he⟩ := resolveEach_error heach
  exact ⟨done, name, o, rest, hentries, he, hbase, hdone, rfl⟩

namespace FailsAt

variable {done rest : List (String × ArchetypeOverride)} {name : String} {o : ArchetypeOverride}

/-- The overrides that were made, the one that failed and the rest have different names. -/
theorem nodup (h : FailsAt c c' e done name o rest) :
    ((done ++ (name, o) :: rest).map Prod.fst).Nodup :=
  h.entries ▸ c.overrides.nodup_keys

/-- The overrides before the failure are archetypes. -/
theorem makes (h : FailsAt c c' e done name o rest) {entry : String × ArchetypeOverride}
    (hentry : entry ∈ done) :
    Makes c.archetypes done c'.archetypes entry.1 entry.2 := by
  have hnodup := h.nodup
  rw [List.map_append, List.nodup_append] at hnodup
  exact makes_of_resolveEach h.resolved hnodup.1 hentry

/-- Under the names of the failed override and of those behind it is what was there before. -/
theorem get?_lost (h : FailsAt c c' e done name o rest) {entry : String × ArchetypeOverride}
    (hentry : entry ∈ (name, o) :: rest) :
    c'.archetypes.get? entry.1 = c.archetypes.get? entry.1 := by
  have hnodup := h.nodup
  rw [List.map_append, List.nodup_append] at hnodup
  have hname : entry.1 ∉ done.map Prod.fst := fun hmem =>
    hnodup.2.2 _ hmem _ (List.mem_map_of_mem hentry) rfl
  have hkept := get?_resolveEach (m := c.archetypes) hname
  rwa [h.resolved] at hkept

end FailsAt

/-! ### Archetypes that are added later -/

/-- The addition of an archetype leaves the overrides alone. -/
theorem addArchetype_ok {a : Archetype} (h : c.addArchetype a = .ok c') :
    c'.overrides = c.overrides ∧ c'.archetypes = c.archetypes.insert a.name a := by
  unfold addArchetype addNew at h
  split at h
  · cases h
  · split at h
    · cases h
    · cases h
      exact ⟨rfl, rfl⟩

/-- Added archetypes change neither the overrides nor what is under other names. -/
theorem addArchetypes_ok {l : List Archetype} (h : l.foldlM addArchetype c = .ok c') :
    c'.overrides = c.overrides ∧ ∀ name ∉ l.map Archetype.name,
      c'.archetypes.get? name = c.archetypes.get? name := by
  induction l generalizing c with
  | nil =>
    cases h
    exact ⟨rfl, fun _ _ => rfl⟩
  | cons a rest ih =>
    rw [List.foldlM_cons] at h
    cases hadd : c.addArchetype a with
    | error e =>
      rw [hadd] at h
      cases h
    | ok c₁ =>
      rw [hadd] at h
      obtain ⟨hover, hget⟩ := ih h
      obtain ⟨hover₁, hinsert⟩ := addArchetype_ok hadd
      refine ⟨hover.trans hover₁, fun name hname => ?_⟩
      rw [List.map_cons, List.mem_cons, not_or] at hname
      -- The name is none of the rest, nor that of the first archetype.
      rw [hget name hname.2, hinsert, OrderedMap.get?_insert_of_ne _ _ hname.1]

/-! ### What a failure loses -/

/-- A resolution that fails loses the override that fails and all behind it. Nothing is made of
them, they are not pending any more, and so they stay lost when archetypes are added, whatever
these are: the overrides are then resolved with success, and nothing changes. -/
theorem loses_of_resolveOverrides (h : c.resolveOverrides = (.error e, c')) :
    ∃ done name o rest, FailsAt c c' e done name o rest ∧
      (∀ entry ∈ done, Makes c.archetypes done c'.archetypes entry.1 entry.2) ∧
      ∀ (l : List Archetype) (c'' : Catalog), l.foldlM addArchetype c' = .ok c'' →
        c''.resolveOverrides = (.ok (), c'') ∧
        ∀ entry ∈ (name, o) :: rest, entry.1 ∉ l.map Archetype.name →
          c''.archetypes.get? entry.1 = c.archetypes.get? entry.1 := by
  obtain ⟨done, name, o, rest, hfails⟩ := exists_failsAt h
  refine ⟨done, name, o, rest, hfails, fun entry => hfails.makes, fun l c'' hl => ?_⟩
  obtain ⟨hover, hget⟩ := addArchetypes_ok hl
  -- The failure left no overrides behind, so a later resolution has nothing to do.
  have hnone : c'.overrides = {} := congrArg Catalog.overrides hfails.taken
  refine ⟨resolveOverrides_of_empty (hover.trans hnone), fun entry hentry hname => ?_⟩
  rw [hget entry.1 hname, hfails.get?_lost hentry]

end Catalog

/-! ### An override without a base -/

namespace Sample

/-- An override that takes all names of its base. -/
def sameAs (base name : String) : ArchetypeOverride :=
  ⟨name, base, ⟨{}, {}⟩, ⟨{}, {}⟩, ⟨{}, {}⟩, ⟨{}, {}⟩⟩

/-- Three overrides, of which the second has no base. -/
def layered : Catalog :=
  { Catalog.empty with
    archetypes := .ofList [("plain", .bare "plain")]
    overrides := .ofList [("first", sameAs "plain" "first"),
      ("orphan", sameAs "nowhere" "orphan"), ("same", sameAs "plain" "same")] }

end Sample

namespace Catalog

/-- The catalog fails at an override whose base is nowhere. -/
theorem loses_of_resolveOverrides_layered :
    Sample.layered.resolveOverrides =
      (.error (.unknownBaseArchetype "orphan" "nowhere"), Sample.layered.resolveOverrides.2) ∧
    ∃ done name o rest, FailsAt Sample.layered Sample.layered.resolveOverrides.2
        (.unknownBaseArchetype "orphan" "nowhere") done name o rest ∧
      (∀ entry ∈ done, Makes Sample.layered.archetypes done
        Sample.layered.resolveOverrides.2.archetypes entry.1 entry.2) ∧
      ∀ (l : List Archetype) (c'' : Catalog),
        l.foldlM addArchetype Sample.layered.resolveOverrides.2 = .ok c'' →
        c''.resolveOverrides = (.ok (), c'') ∧
        ∀ entry ∈ (name, o) :: rest, entry.1 ∉ l.map Archetype.name →
          c''.archetypes.get? entry.1 = Sample.layered.archetypes.get? entry.1 := by
  have herror : Sample.layered.resolveOverrides =
      (.error (.unknownBaseArchetype "orphan" "nowhere"), Sample.layered.resolveOverrides.2) :=
    Prod.ext (by rfl) rfl
  exact ⟨herror, loses_of_resolveOverrides herror⟩

/-- The resolution of `layered` fails. No override is pending after that, so it succeeds when it
is done again, and also when the missing base was added. Of the three overrides, only the
first one is an archetype then. Were the base added in time, all three would be. -/
theorem orphan_lost :
    let failed := Sample.layered.resolveOverrides
    let base := Archetype.bare "nowhere"
    let retried := (failed.2.addArchetype base).toOption.map Catalog.resolveOverrides
    let intime := (Sample.layered.addArchetype base).toOption.map Catalog.resolveOverrides
    failed.1 = .error (.unknownBaseArchetype "orphan" "nowhere") ∧
    failed.2.overrides ≠ Sample.layered.overrides ∧
    failed.2.archetypes ≠ Sample.layered.archetypes ∧
    failed.2.resolveOverrides.1 = .ok () ∧
    retried.map (fun x => (x.1.isOk, x.2.archetypes.keys)) =
      some (true, ["first", "nowhere", "plain"]) ∧
    intime.map (fun x => (x.1.isOk, x.2.archetypes.keys)) =
      some (true, ["first", "nowhere", "orphan", "plain", "same"]) := by
  refine ⟨?_, ?_, ?_, ?_, ?_, ?_⟩
  · rfl
  · decide +kernel
  · decide +kernel
  · rfl
  · decide +kernel
  · decide +kernel

end Catalog

end Governance
