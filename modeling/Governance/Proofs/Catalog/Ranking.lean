import Governance.Proofs.Catalog.History
import Governance.Proofs.Version

/-!
# `Governance.Proofs.Catalog.Ranking`: the version that stands first

A look-up without a version takes the first of the versions of a name. `Version.compare` is no
order on all versions, because it compares some parts as numbers and others as texts: `9` is
below `10`, `10` is below `1a`, and `1a` is below `9`. And different versions can be equal in it,
as `1.0` and `01.0` are. So the first version is not always the highest one. `Versions.Ranked`
says what holds anyway:

* a version that ranks above all others stands first;
* no version ranks above the first one, if the versions of this name are in order
  (`Version.Transitive`).

`Catalog.ranked_after`: so it is for all names after every run of calls.
-/

set_option autoImplicit false

namespace Governance

namespace Version

/-- `v` is one of the versions, and it ranks above all others. -/
def IsHighest (versions : Option String → Prop) (v : Option String) : Prop :=
  versions v ∧ ∀ w, versions w → w ≠ v → compare v w = .gt

/-- The versions are in order: what is not below a second one that is not below a third one is
not below the third one. -/
def Transitive (versions : Option String → Prop) : Prop :=
  ∀ u v w, versions u → versions v → versions w →
    compare u v ≠ .lt → compare v w ≠ .lt → compare u w ≠ .lt

end Version

/-! ### The versions of one name -/

namespace Versions

variable {α : Type} {vs : Versions α} {version : Option String} {a : α}

/-- The versions that are there. -/
def Holds (vs : Versions α) (version : Option String) : Prop := vs.item? version ≠ none

/-- The first entry is found under its version. -/
theorem item?_of_head? {e : Option String × α} (h : vs.entries.head? = some e) :
    vs.item? e.1 = some e.2 := by
  obtain ⟨rest, hrest⟩ := List.head?_eq_some_iff.mp h
  simp [item?, hrest]

/-- The version of the first entry is there. -/
theorem holds_of_head? {e : Option String × α} (h : vs.entries.head? = some e) :
    vs.Holds e.1 := by
  simp [Holds, item?_of_head? h]

/-- Where a version is there, there is a first entry. -/
theorem exists_head?_of_holds (h : vs.Holds version) : ∃ e, vs.entries.head? = some e := by
  refine Option.ne_none_iff_exists'.mp fun hnone => h ?_
  rw [item?, List.head?_eq_none_iff.mp hnone]
  rfl

/-- After an insertion its version is there, and those that were there before. -/
theorem holds_insert (hfree : vs.item? version = none) {v : Option String} :
    (vs.insert version a).Holds v ↔ v = version ∨ vs.Holds v := by
  unfold Holds
  rw [item?_insert hfree]
  by_cases hv : v = version <;> simp [hv]

/-- A new entry stands first unless it is below the entry that stood first. -/
theorem head?_insert_cases (vs : Versions α) (version : Option String) (a : α) :
    (∃ e, vs.entries.head? = some e ∧ Version.compare version e.1 = .lt ∧
      (vs.insert version a).entries.head? = some e) ∨
    (∀ e, vs.entries.head? = some e → Version.compare version e.1 ≠ .lt) ∧
      (vs.insert version a).entries.head? = some (version, a) := by
  rw [insert]
  cases vs.entries with
  | nil => exact Or.inr ⟨by simp, rfl⟩
  | cons e rest => by_cases h : Version.compare version e.1 = .lt <;> simp [isBelow, h]

/-- What is known of the first entry.

- `highest`: a version that ranks above all others stands first;
- `first`: where the versions are in order, none ranks above the first one. -/
structure Ranked (vs : Versions α) : Prop where
  highest : ∀ v, Version.IsHighest vs.Holds v → ∃ a, vs.entries.head? = some (v, a)
  first : Version.Transitive vs.Holds → ∀ e, vs.entries.head? = some e →
    ∀ w, vs.Holds w → Version.compare e.1 w ≠ .lt

/-- Without versions there is no first entry to ask about. -/
theorem ranked_empty : (empty : Versions α).Ranked where
  highest _ h := absurd rfl h.1
  first _ _ h := nomatch h

/-- An insertion keeps what is known of the first entry. -/
theorem ranked_insert (h : vs.Ranked) (hfree : vs.item? version = none) :
    (vs.insert version a).Ranked where
  highest v hv := by
    obtain ⟨hheld, hgt⟩ := hv
    have hold : ∀ {w}, vs.Holds w → w ≠ v → Version.compare v w = .gt := fun hw =>
      hgt _ ((holds_insert hfree).mpr (Or.inr hw))
    rcases (holds_insert hfree).mp hheld with rfl | hheld
    · -- The new version is the highest one, so no entry keeps it from the first place.
      rcases vs.head?_insert_cases v a with ⟨e, hhead, hbelow, -⟩ | ⟨-, hfirst⟩
      · have hne : e.1 ≠ v := by
          intro he
          exact holds_of_head? hhead (he ▸ hfree)
        rw [hold (holds_of_head? hhead) hne] at hbelow
        cases hbelow
      · exact ⟨a, hfirst⟩
    · -- An old version is the highest one. It stands first, and the new one is below it.
      obtain ⟨b, hhead⟩ := h.highest v ⟨hheld, fun w => hold⟩
      rcases vs.head?_insert_cases version a with ⟨e, he, -, hfirst⟩ | ⟨hbelow, -⟩
      · rw [hhead] at he
        cases he
        exact ⟨b, hfirst⟩
      · have hne : version ≠ v := by
          rintro rfl
          exact hheld hfree
        have hgt := hgt version ((holds_insert hfree).mpr (Or.inl rfl)) hne
        exact absurd (Std.OrientedCmp.lt_of_gt hgt) (hbelow _ hhead)
  first htrans e he w hw := by
    have hold : ∀ {u}, vs.Holds u → (vs.insert version a).Holds u := fun hu =>
      (holds_insert hfree).mpr (Or.inr hu)
    have hfirst := h.first fun u v w hu hv hw => htrans u v w (hold hu) (hold hv) (hold hw)
    rcases vs.head?_insert_cases version a with ⟨e', hhead, hbelow, hinsert⟩ | ⟨hbelow, hinsert⟩ <;>
      rw [hinsert] at he <;> cases he <;> rcases (holds_insert hfree).mp hw with rfl | hw
    · simp [Std.OrientedCmp.gt_of_lt hbelow]
    · exact hfirst e hhead w hw
    · simp [Version.compare_self]
    · -- The old entry in front ranks between the new one and the other old ones.
      obtain ⟨e', hhead⟩ := exists_head?_of_holds hw
      exact htrans version e'.1 w ((holds_insert hfree).mpr (Or.inl rfl))
        (hold (holds_of_head? hhead)) (hold hw) (hbelow e' hhead) (hfirst e' hhead w hw)

end Versions

/-! ### All names -/

namespace Catalog

section Table

variable {α : Type} {m : OrderedMap String (Versions α)} {name : String}

/-- The versions of every name in a table are ranked. -/
def TableRanked (m : OrderedMap String (Versions α)) : Prop :=
  ∀ name vs, m.get? name = some vs → vs.Ranked

/-- An addition keeps what is known of the first entry of every name. -/
theorem tableRanked_addVersion {m' : OrderedMap String (Versions α)} {kind : AssetKind}
    {version : Option String} {a : α} (hm : TableRanked m)
    (h : addVersion m kind name version a = .ok m') : TableRanked m' := by
  obtain ⟨hfree, rfl⟩ := addVersion_ok h
  rw [versionAt?_eq] at hfree
  intro name' vs hvs
  by_cases hname : name' = name
  · rw [hname, OrderedMap.get?_insert_self] at hvs
    cases hvs
    -- The name may be new, and then its versions begin with none.
    refine Versions.ranked_insert ?_ hfree
    cases hold : m.get? name with
    | none => exact Versions.ranked_empty
    | some old => exact hm name old hold
  · rw [OrderedMap.get?_insert_of_ne _ _ hname] at hvs
    exact hm name' vs hvs

/-- What a look-up without a version finds. -/
def first? (m : OrderedMap String (Versions α)) (name : String) : Option α :=
  (m.get? name).bind (·.find? none)

/-- A version of a name is looked up among the versions of the name. -/
theorem versionAt?_of_get? {vs : Versions α} (h : m.get? name = some vs) (v : Option String) :
    versionAt? m name v = vs.item? v := by
  rw [versionAt?, h]
  rfl

/-- What is found without a version is the first entry of the name. -/
theorem first?_of_get? {vs : Versions α} (h : m.get? name = some vs) :
    first? m name = vs.entries.head?.map Prod.snd := by
  rw [first?, h]
  rfl

/-- A name of which a version is found has versions. -/
theorem exists_get?_of_versionAt? {v : Option String} (h : versionAt? m name v ≠ none) :
    ∃ vs, m.get? name = some vs ∧ vs.Holds v := by
  cases hvs : m.get? name with
  | none => exact absurd (by rw [versionAt?, hvs]; rfl) h
  | some vs =>
    rw [versionAt?_of_get? hvs] at h
    exact ⟨vs, rfl, h⟩

/-- A look-up without a version finds something if there is a version. -/
theorem isSome_first?_iff :
    (first? m name).isSome = true ↔ ∃ v, versionAt? m name v ≠ none := by
  constructor
  · intro h
    obtain ⟨a, ha⟩ := Option.isSome_iff_exists.mp h
    obtain ⟨vs, hvs, -⟩ := Option.bind_eq_some_iff.mp ha
    rw [first?_of_get? hvs] at ha
    obtain ⟨e, hhead, -⟩ := Option.map_eq_some_iff.mp ha
    exact ⟨e.1, versionAt?_of_get? hvs e.1 ▸ Versions.holds_of_head? hhead⟩
  · rintro ⟨v, h⟩
    obtain ⟨vs, hvs, hv⟩ := exists_get?_of_versionAt? h
    obtain ⟨e, he⟩ := Versions.exists_head?_of_holds hv
    simp [first?_of_get? hvs, he]

/-- A look-up without a version finds the version that ranks above all others. -/
theorem first?_of_isHighest (hm : TableRanked m) {v : Option String}
    (hv : Version.IsHighest (fun w => versionAt? m name w ≠ none) v) :
    first? m name = versionAt? m name v := by
  obtain ⟨vs, hvs, -⟩ := exists_get?_of_versionAt? hv.1
  simp only [versionAt?_of_get? hvs] at hv
  obtain ⟨a, hhead⟩ := (hm name vs hvs).highest v hv
  rw [first?_of_get? hvs, versionAt?_of_get? hvs, hhead, Versions.item?_of_head? hhead,
    Option.map_some]

/-- What a look-up without a version finds has a version, above which none ranks if the versions
are in order. -/
theorem exists_of_first? (hm : TableRanked m) {a : α} (h : first? m name = some a) :
    ∃ v, versionAt? m name v = some a ∧
      (Version.Transitive (fun w => versionAt? m name w ≠ none) →
        ∀ w, versionAt? m name w ≠ none → Version.compare v w ≠ .lt) := by
  obtain ⟨vs, hvs, -⟩ := Option.bind_eq_some_iff.mp h
  rw [first?_of_get? hvs] at h
  obtain ⟨⟨v, a'⟩, hhead, rfl⟩ := Option.map_eq_some_iff.mp h
  simp only [versionAt?_of_get? hvs]
  exact ⟨v, Versions.item?_of_head? hhead, fun htrans => (hm name vs hvs).first htrans _ hhead⟩

/-- A new version that is not below another one takes the first place from it. -/
theorem first?_addVersion_ne {m' : OrderedMap String (Versions α)} {kind : AssetKind}
    {v w : Option String} {a b : α} (h : addVersion m kind name w a = .ok m') (hne : a ≠ b)
    (hb : ∀ u, versionAt? m name u = some b → u = v) (hle : Version.compare w v ≠ .lt) :
    first? m' name ≠ some b := by
  obtain ⟨-, rfl⟩ := addVersion_ok h
  rw [first?_of_get? (OrderedMap.get?_insert_self _ _ _)]
  rcases ((m.get? name).getD .empty).head?_insert_cases w a with
    ⟨e, hhead, hlt, hinsert⟩ | ⟨-, hinsert⟩
  · rw [hinsert, Option.map_some, ne_eq, Option.some.injEq]
    rintro rfl
    -- The head stayed in front because the new version is below it. But the head would be `b`, of
    -- the version `v`, which the new one is not below.
    have hv : e.1 = v := hb e.1 (versionAt?_eq m _ _ ▸ Versions.item?_of_head? hhead)
    exact hle (hv ▸ hlt)
  · rw [hinsert]
    exact fun heq => hne (Option.some.inj heq)

end Table

/-- The versions of every policy definition and set definition are ranked. -/
structure Ranked (c : Catalog) : Prop where
  policyDefinitions : TableRanked c.policyDefinitions
  policySetDefinitions : TableRanked c.policySetDefinitions

variable {c c' : Catalog} {a : Addition}

/-- In the empty catalog there are no first entries. -/
theorem ranked_empty : empty.Ranked := ⟨nofun, nofun⟩

/-- An addition to a catalog keeps what is known of the first entries. -/
theorem ranked_put (hranked : c.Ranked) (h : c.put a = .ok c') : c'.Ranked := by
  -- Only the two kinds that have versions change such a table.
  cases a with
  | policyDefinition p =>
    obtain ⟨m, hm, hc⟩ := bind_eq_ok.mp h
    cases hc
    exact ⟨tableRanked_addVersion hranked.1 hm, hranked.2⟩
  | policySetDefinition p =>
    obtain ⟨m, hm, hc⟩ := bind_eq_ok.mp h
    cases hc
    exact ⟨hranked.1, tableRanked_addVersion hranked.2 hm⟩
  | archetype x | archetypeOverride x =>
    obtain ⟨m, -, hc⟩ := bind_eq_ok.mp (guarded_eq_ok.mp h).2
    cases hc
    exact ⟨hranked.1, hranked.2⟩
  | _ =>
    obtain ⟨m, -, hc⟩ := bind_eq_ok.mp h
    cases hc
    exact ⟨hranked.1, hranked.2⟩

/-- Whatever is called, what is known of the first entries stays true. -/
theorem ranked_after (h : c.Ranked) (calls : List Call) : (c.after calls).Ranked :=
  invariant ranked_put (fun h => ⟨h.1, h.2⟩) h calls

end Catalog

end Governance
