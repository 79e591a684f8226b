import Governance.Proofs.Expression.ParameterCall

/-!
# `Governance.Proofs.Expression.Spelling`: the parameter that a name is about

An expression that names no parameter takes the first one whose name differs from its own in the
case of letters only. `Spelling` says which of the names that are there the expression is about.

* `Spelling.unique`: there is one such name at most.
* `lookup?_eq_some_iff`, `evaluate_parameterCall_iff`: what is found, and the value of the
  expression, is the value under it.
-/

set_option autoImplicit false

namespace Governance.Expression

variable {known : String → Prop} {env : Environment} {p n n' : String} {v : Json}

/-! ### The name that is meant -/

/-- Of the names that are known, `n` is the one that is meant by `p`:

- `mem`, `alike`: it is known, and differs from `p` in the case of letters at most;
- `exact`: it is `p` itself, if that is known;
- `first`: it is the first one that is alike, if `p` is not known. -/
structure Spelling (known : String → Prop) (p n : String) : Prop where
  mem : known n
  alike : Text.equalIgnoringCase n p = true
  exact : known p → n = p
  first : ¬ known p → ∀ k, known k → Text.equalIgnoringCase k p = true → compare k n ≠ .lt

/-- One name at most is meant. -/
theorem Spelling.unique (h : Spelling known p n) (h' : Spelling known p n') : n = n' := by
  by_cases hp : known p
  · rw [h.exact hp, h'.exact hp]
  · have hle := h.first hp n' h'.mem h'.alike
    have hge := h'.first hp n h.mem h.alike
    rw [ne_eq, ← Std.OrientedCmp.gt_iff_lt] at hle
    cases hcompare : compare n n' with
    | lt => exact absurd hcompare hge
    | eq => exact Std.LawfulEqCmp.eq_of_compare hcompare
    | gt => exact absurd hcompare hle

/-- A name is looked up as it is spelled, and then in any case of letters. -/
theorem lookup?_entries (env : Environment) (p : String) : lookup? p env.entries =
    (env.get? p).or ((env.entries.find? fun e => Text.equalIgnoringCase e.1 p).map Prod.snd) := by
  rw [lookup?, OrderedMap.lookup_entries, Option.orElse_eq_orElse, Option.orElse_eq_or]

/-- What is looked up under a name is the value of the name that is meant. -/
theorem lookup?_eq_some_iff : lookup? p env.entries = some v ↔
    ∃ n, Spelling (fun k => env.contains k = true) p n ∧ env.get? n = some v := by
  rw [lookup?_entries]
  cases hp : env.get? p with
  | some w =>
    -- The spelling is that of a name, and no other name is looked at.
    have hknown : env.contains p = true := OrderedMap.contains_eq_true.mpr ⟨w, hp⟩
    rw [Option.some_or]
    constructor
    · intro hw
      have halike := Text.equalIgnoringCase_refl p
      exact ⟨p, ⟨hknown, halike, fun _ => rfl, fun h => absurd hknown h⟩, hp.trans hw⟩
    · rintro ⟨n, hn, hv⟩
      rwa [hn.exact hknown, hp] at hv
  | none =>
    -- No name has this very spelling, so the first name that is alike is meant.
    have hunknown : ¬ env.contains p = true := by
      rw [OrderedMap.contains_eq_true, hp]
      simp
    rw [Option.none_or, Option.map_eq_some_iff]
    constructor
    · rintro ⟨⟨n, w⟩, hfind, rfl⟩
      rw [OrderedMap.find?_entries_eq_some_iff (f := fun k => Text.equalIgnoringCase k p)] at hfind
      obtain ⟨hn, halike, hleast⟩ := hfind
      have hknown : env.contains n = true := OrderedMap.contains_eq_true.mpr ⟨w, hn⟩
      exact ⟨n, ⟨hknown, halike, fun h => absurd h hunknown, fun _ => hleast⟩, hn⟩
    · rintro ⟨n, hn, hv⟩
      refine ⟨(n, v), ?_, rfl⟩
      rw [OrderedMap.find?_entries_eq_some_iff (f := fun k => Text.equalIgnoringCase k p)]
      exact ⟨hv, hn.alike, hn.first hunknown⟩

/-- Something is looked up under a name that is alike to one that is there. -/
theorem exists_lookup? (hn : env.contains n = true) (halike : Text.equalIgnoringCase n p = true) :
    ∃ v, lookup? p env.entries = some v := by
  obtain ⟨v, hv⟩ := OrderedMap.contains_eq_true.mp hn
  have hmem : (n, v) ∈ env.entries := OrderedMap.get?_eq_some_iff.mp hv
  have hfind : (env.entries.find? fun e => Text.equalIgnoringCase e.1 p).isSome = true :=
    List.find?_isSome.mpr ⟨(n, v), hmem, halike⟩
  rw [← Option.isSome_iff_exists, lookup?_entries, Option.isSome_or, Option.isSome_map, hfind]
  simp

/-- The expression has the value of the name that is meant, and no value without one. -/
theorem evaluate_parameterCall_iff : evaluate env (parameterCall p) = .ok v ↔
    ∃ n, Spelling (fun k => env.contains k = true) p n ∧ env.get? n = some v := by
  rw [evaluate_parameterCall_eq, ← lookup?_eq_some_iff]
  cases lookup? p env.entries with
  | some w => simp
  | none => simp

end Governance.Expression
