import Governance.Proofs.Catalog.History

/-!
# `Governance.Proofs.Catalog.Bases`: the archetypes that overrides are made of

An override names its base. When the overrides are resolved, in the order of their names, the
base is looked up among the archetypes that are there by then. Those made of earlier overrides
are among them. So an override can have another override as its base, if the name of that one
comes first.

* `resolveOverrides_ok_iff`: a resolution succeeds exactly when the base of each override is an
  archetype, or an override with a name in front of its own.
* `get?_base_of_resolveOverrides`: after that, each override has made an archetype of the one
  that is under the name of its base.
* `resolvesPlainly_iff`: when a resolution looks only at the archetypes that were there before
  it (`ResolvesPlainly`). It does so when no override has another one as its base, and when it
  fails anyway. In all other cases it accepts an override of an override.
* `accepts_override_of_override` is such a case. Under another name the same overrides are
  refused.
-/

set_option autoImplicit false

namespace Governance.Catalog

/-! ### One override after another -/

/-- Overrides are all resolved when the base of each is an archetype or an earlier override. -/
theorem resolveEach_ok_iff {m : OrderedMap String Archetype}
    {l : List (String × ArchetypeOverride)} :
    (resolveEach m l).1 = .ok () ↔ ∀ before name o after, l = before ++ (name, o) :: after →
      m.contains o.base = true ∨ o.base ∈ before.map Prod.fst := by
  induction l generalizing m with
  | nil => simp [resolveEach]
  | cons entry rest ih =>
    obtain ⟨name, o⟩ := entry
    rw [resolveEach]
    split
    · rename_i hbase
      constructor
      · intro h
        cases h
      · intro h
        have hfound := h [] name o rest rfl
        simp [OrderedMap.contains, hbase] at hfound
    · rename_i base hbase
      -- The archetype of the first override counts for the rest.
      have hinsert : ∀ k, (m.insert name (o.apply base)).contains k = true ↔
          k = name ∨ m.contains k = true := fun k => by
        by_cases hk : k = name
        · simp [OrderedMap.contains, hk]
        · simp [OrderedMap.contains, OrderedMap.get?_insert_of_ne m _ hk, hk]
      rw [ih]
      constructor
      · intro h before name' o' after hsplit
        cases before with
        | nil =>
          cases hsplit
          exact Or.inl (by simp [OrderedMap.contains, hbase])
        | cons e before =>
          obtain ⟨rfl, hrest⟩ := List.cons.inj hsplit
          rcases h before name' o' after hrest with h | h
          · rcases (hinsert _).mp h with h | h
            · exact Or.inr (h ▸ List.mem_cons_self)
            · exact Or.inl h
          · exact Or.inr (List.mem_cons_of_mem _ h)
      · intro h before name' o' after hrest
        rcases h ((name, o) :: before) name' o' after (by rw [hrest]; rfl) with h | h
        · exact Or.inl ((hinsert _).mpr (Or.inr h))
        · rcases List.mem_cons.mp h with h | h
          · exact Or.inl ((hinsert _).mpr (Or.inl h))
          · exact Or.inr h

/-! ### The overrides of a catalog -/

variable {c c' : Catalog} {name : String} {o : ArchetypeOverride}

/-- An override that is resolved before the one named `name`. -/
def ComesBefore (c : Catalog) (base name : String) : Prop :=
  c.overrides.contains base = true ∧ compare base name = .lt

/-- A resolution succeeds when the base of each override is an archetype, or an override with a
name in front of its own. -/
theorem resolveOverrides_ok_iff : c.resolveOverrides.1 = .ok () ↔
    ∀ name o, c.overrides.get? name = some o →
      c.archetypes.contains o.base = true ∨ c.ComesBefore o.base name := by
  -- Overrides are resolved in the order of their names, so those in front of one are those with
  -- names below its own.
  have hbefore : ∀ {before after name} {o : ArchetypeOverride} {base : String},
      c.overrides.entries = before ++ (name, o) :: after →
        (base ∈ before.map Prod.fst ↔ c.ComesBefore base name) := fun hsplit => by
    rw [OrderedMap.mem_keys_before hsplit, OrderedMap.mem_keys, ← OrderedMap.contains_eq_true]
    rfl
  rw [resolveOverrides_eq, resolveEach_ok_iff]
  constructor
  · intro h name o ho
    obtain ⟨before, after, hsplit⟩ := List.append_of_mem (OrderedMap.get?_eq_some_iff.mp ho)
    exact (h before name o after hsplit).imp_right (hbefore hsplit).mp
  · intro h before name o after hsplit
    have ho : c.overrides.get? name = some o :=
      OrderedMap.get?_eq_some_iff.mpr (hsplit ▸ by simp)
    exact (h name o ho).imp_right (hbefore hsplit).mpr

/-- After a resolution, the archetype that an override was made of is under the name of its
base. -/
theorem get?_base_of_resolveOverrides (hdisjoint : c.Disjoint)
    (h : c.resolveOverrides = (.ok (), c')) (ho : c.overrides.get? name = some o) :
    ∃ base, c'.archetypes.get? o.base = some base ∧
      c'.archetypes.get? name = some (o.apply base) := by
  obtain ⟨before, after, m₁, base, hsplit, hbefore, hbase, hname⟩ :=
    makes_of_resolveOverrides h ho
  refine ⟨base, ?_, hname⟩
  have hrest : (resolveEach m₁ ((name, o) :: after)).2 = c'.archetypes := by
    obtain ⟨-, rfl⟩ := Prod.mk.inj h
    rw [hsplit, resolveEach_append, hbefore]
  rw [← hrest, get?_resolveEach, hbase]
  -- A base that is resolved later would be an archetype already, and an override too.
  intro hlater
  have hnodup := c.overrides.nodup_keys
  rw [OrderedMap.keys, hsplit, List.map_append, List.nodup_append] at hnodup
  have hold : (resolveEach c.archetypes before).2.get? o.base = c.archetypes.get? o.base :=
    get?_resolveEach fun hmem => hnodup.2.2 _ hmem _ hlater rfl
  have hover : o.base ∈ c.overrides.keys := by
    rw [OrderedMap.keys, hsplit, List.map_append]
    exact List.mem_append_right _ hlater
  obtain ⟨o', ho'⟩ := OrderedMap.mem_keys.mp hover
  rw [hbefore, hbase] at hold
  exact hdisjoint.elim hold.symm ho'

/-! ### Plain bases -/

/-- The overrides are resolved against the archetypes of `c` only. This succeeds when the base of
each override is one of them, and each override makes its archetype of this base. -/
structure ResolvesPlainly (c : Catalog) : Prop where
  ok_iff : c.resolveOverrides.1 = .ok () ↔
    ∀ name o, c.overrides.get? name = some o → c.archetypes.contains o.base = true
  makes : c.resolveOverrides.1 = .ok () → ∀ name o base, c.overrides.get? name = some o →
    c.archetypes.get? o.base = some base →
      c.resolveOverrides.2.archetypes.get? name = some (o.apply base)

/-- Where only plain bases are accepted, no override is the base of another one, or some base stops
the resolution. -/
theorem ResolvesPlainly.cases (h : c.ResolvesPlainly) (hdisjoint : c.Disjoint) :
    (∀ name o, c.overrides.get? name = some o → c.overrides.contains o.base = false) ∨
      ∃ name o, c.overrides.get? name = some o ∧ c.archetypes.contains o.base = false ∧
        ¬ c.ComesBefore o.base name := by
  by_cases hok : c.resolveOverrides.1 = .ok ()
  · refine Or.inl fun name o ho => ?_
    obtain ⟨base, hbase⟩ := OrderedMap.contains_eq_true.mp (h.ok_iff.mp hok name o ho)
    exact OrderedMap.contains_eq_false.mpr ((hdisjoint o.base).resolve_left (by simp [hbase]))
  · rw [resolveOverrides_ok_iff] at hok
    push Not at hok
    obtain ⟨name, o, ho, hbase, hbefore⟩ := hok
    exact Or.inr ⟨name, o, ho, Bool.eq_false_iff.mpr hbase, hbefore⟩

/-- Overrides whose bases are no overrides are resolved against the archetypes only. -/
theorem resolvesPlainly_of_bases (hdisjoint : c.Disjoint)
    (h : ∀ name o, c.overrides.get? name = some o → c.overrides.contains o.base = false) :
    c.ResolvesPlainly where
  ok_iff := by
    rw [resolveOverrides_ok_iff]
    refine forall₃_congr fun name o ho => or_iff_left fun hbefore => ?_
    rw [ComesBefore, h name o ho] at hbefore
    cases hbefore.1
  makes hok name o base ho hbase := by
    obtain ⟨base', hbase', hname⟩ := get?_base_of_resolveOverrides hdisjoint (Prod.ext hok rfl) ho
    rw [archetypes_resolveOverrides hdisjoint hbase] at hbase'
    rw [hname, Option.some.inj hbase']

/-- A resolution that must fail fails. -/
theorem resolvesPlainly_of_missing (ho : c.overrides.get? name = some o)
    (hbase : c.archetypes.contains o.base = false) (hbefore : ¬ c.ComesBefore o.base name) :
    c.ResolvesPlainly := by
  have hfails : c.resolveOverrides.1 ≠ .ok () := fun hok => by
    rcases resolveOverrides_ok_iff.mp hok name o ho with h | h
    · rw [hbase] at h
      cases h
    · exact hbefore h
  refine ⟨iff_of_false hfails fun h => ?_, fun hok => absurd hok hfails⟩
  have hfound := h name o ho
  rw [hbase] at hfound
  cases hfound

/-- After any calls on the empty catalog, a resolution succeeds exactly when the base of each
pending override is an archetype, or an override with a name in front of its own. Each override
then makes its archetype of the one under the name of its base. So the archetypes alone decide
unless all bases are at hand and some base is an override. -/
theorem resolvesPlainly_iff (calls : List Call) :
    let c := empty.after calls
    (c.ResolvesPlainly ↔
      (∀ name o, c.overrides.get? name = some o → c.overrides.contains o.base = false) ∨
        ∃ name o, c.overrides.get? name = some o ∧ c.archetypes.contains o.base = false ∧
          ¬ c.ComesBefore o.base name) ∧
    (c.resolveOverrides.1 = .ok () ↔ ∀ name o, c.overrides.get? name = some o →
      c.archetypes.contains o.base = true ∨ c.ComesBefore o.base name) ∧
    (c.resolveOverrides.1 = .ok () → ∀ name o, c.overrides.get? name = some o →
      ∃ base, c.resolveOverrides.2.archetypes.get? o.base = some base ∧
        c.resolveOverrides.2.archetypes.get? name = some (o.apply base)) := by
  intro c
  have hdisjoint : c.Disjoint := disjoint_after disjoint_empty calls
  refine ⟨⟨fun h => h.cases hdisjoint, ?_⟩, resolveOverrides_ok_iff, fun hok name o ho =>
    get?_base_of_resolveOverrides hdisjoint (Prod.ext hok rfl) ho⟩
  -- Either all bases are plain, or the resolution fails before it could accept one that is not.
  rintro (h | ⟨name, o, ho, hbase, hbefore⟩)
  · exact resolvesPlainly_of_bases hdisjoint h
  · exact resolvesPlainly_of_missing ho hbase hbefore

end Governance.Catalog

namespace Governance

/-- An archetype, an override of it, and an override of that override. -/
def Sample.overTwice (middle : String) : List Catalog.Call :=
  [.add (.archetype (.bare "plain")),
   .add (.archetypeOverride (Sample.sameAs "plain" middle)),
   .add (.archetypeOverride (Sample.sameAs middle "second"))]

/-- The base of `second` is a pending override and no archetype. Still the overrides are resolved,
because the name of the base comes first. Where it comes last, `second` is refused. -/
theorem Catalog.accepts_override_of_override :
    let c := Catalog.empty.after (Sample.overTwice "first")
    let d := Catalog.empty.after (Sample.overTwice "third")
    c.archetypes.keys = ["plain"] ∧ c.overrides.keys = ["first", "second"] ∧
    c.resolveOverrides.1 = .ok () ∧ ¬ c.ResolvesPlainly ∧
    d.resolveOverrides.1 = .error (.unknownBaseArchetype "second" "third") := by
  refine ⟨rfl, rfl, rfl, fun h => ?_, rfl⟩
  have hbase := h.ok_iff.mp rfl "second" (Sample.sameAs "first" "second") rfl
  exact absurd hbase (by decide)

end Governance
