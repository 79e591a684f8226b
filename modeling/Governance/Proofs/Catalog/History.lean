import Governance.Proofs.Catalog.Contents

/-!
# `Governance.Proofs.Catalog.History`: what a run of calls can do to a catalog

A run is a list of calls (`Catalog.after`). Each call adds something or resolves the pending
overrides, and it may succeed or fail. `Catalog.invariant` is the induction over runs: a
property holds after a run when additions that succeed keep it, and resolutions keep it, those
that fail included.

`keeps_after` is the main result. A look-up that finds an asset finds the same asset after
every later run. The asset is looked up by its name, and a policy definition or a set
definition also by its version. An addition that fails changes nothing, and it fails exactly
when its place is taken. No override ever has the name of an archetype.

The argument is about places. `Extends` says that what is in a place stays there, as long as it
is no pending override. An addition fills a free place (`extends_put`), and a resolution fills
places that overrides had (`extends_resolveOverrides`). The second fact needs `Disjoint`, because
a resolution does not look at what is under the name of an override.
-/

set_option autoImplicit false

namespace Governance.Catalog

/-- A call that may change a catalog. -/
inductive Call where
  | add (a : Addition)
  | resolveOverrides

/-- What a call answers, and the catalog after it. -/
def call (c : Catalog) : Call → Except CatalogError Unit × Catalog
  | .add a => c.orUnchanged (c.put a)
  | .resolveOverrides => c.resolveOverrides

/-- The catalog after calls, of which some may fail. -/
def after (c : Catalog) (calls : List Call) : Catalog :=
  calls.foldl (fun c x => (c.call x).2) c

variable {c c' c'' : Catalog} {a : Addition}

/-! ### Runs -/

/-- The call of an addition leaves the catalog unchanged where the addition fails. -/
theorem call_add (c : Catalog) (a : Addition) : c.call (.add a) = c.orUnchanged (c.put a) := rfl

/-- An addition changes nothing, or it succeeds. -/
theorem call_add_cases (c : Catalog) (a : Addition) :
    (∃ e, c.put a = .error e ∧ c.call (.add a) = (.error e, c)) ∨
      ∃ c', c.put a = .ok c' ∧ c.call (.add a) = (.ok (), c') := by
  rw [call_add]
  cases c.put a with
  | error e => exact Or.inl ⟨e, rfl, rfl⟩
  | ok c' => exact Or.inr ⟨c', rfl, rfl⟩

/-- What additions and resolutions keep, a run keeps. -/
theorem invariant {I : Catalog → Prop}
    (hput : ∀ {c a c'}, I c → put c a = .ok c' → I c')
    (hresolve : ∀ {c}, I c → I c.resolveOverrides.2) (h : I c) (calls : List Call) :
    I (c.after calls) := by
  induction calls generalizing c with
  | nil => exact h
  | cons x rest ih =>
    -- The invariant is carried from the first call to the rest of the run.
    refine ih ?_
    change I (c.call x).2
    cases x with
    | add a =>
      rcases c.call_add_cases a with ⟨e, -, hcall⟩ | ⟨c', hc', hcall⟩ <;> rw [hcall]
      · exact h
      · exact hput h hc'
    | resolveOverrides => exact hresolve h

/-- Whatever is called, archetypes and overrides have different names. -/
theorem disjoint_after (h : c.Disjoint) (calls : List Call) : (c.after calls).Disjoint :=
  invariant disjoint_put (fun _ => disjoint_resolveOverrides _) h calls

/-- The addition of a free place is the one that succeeds. -/
theorem call_add_ok_iff : (c.call (.add a)).1 = .ok () ↔ c.at? a.slot = none := by
  rcases c.call_add_cases a with ⟨e, hput, hcall⟩ | ⟨c', hput, hcall⟩ <;> rw [hcall]
  · refine ⟨nofun, fun hfree => ?_⟩
    obtain ⟨c', hok⟩ := exists_put hfree
    rw [hok] at hput
    cases hput
  · exact ⟨fun _ => (put_ok hput).1, fun _ => rfl⟩

/-! ### What stays in its place -/

/-- What is in a place of `c` is there in `c'` too, unless it is a pending override. -/
def Extends (c c' : Catalog) : Prop :=
  ∀ s x, (∀ o, x ≠ .archetypeOverride o) → c.at? s = some x → c'.at? s = some x

/-- A catalog extends itself. -/
theorem Extends.refl (c : Catalog) : c.Extends c := fun _ _ _ h => h

/-- A catalog that extends an extension extends the first one. -/
theorem Extends.trans (h : c.Extends c') (h' : c'.Extends c'') : c.Extends c'' :=
  fun s x hx hs => h' s x hx (h s x hx hs)

/-- An addition keeps what every other place holds, and its own place was free. -/
theorem extends_put (h : c.put a = .ok c') : c.Extends c' := by
  obtain ⟨hfree, hplaces⟩ := put_ok h
  intro s x _ hs
  have hne : s ≠ a.slot := by
    rintro rfl
    rw [hfree] at hs
    cases hs
  rw [hplaces, if_neg hne, hs]

/-- To resolve overrides fills only places that hold overrides, whether or not it fails. -/
theorem extends_resolveOverrides (h : c.Disjoint) : c.Extends c.resolveOverrides.2 := by
  intro s x hx hs
  cases s with
  | archetype name =>
    simp only [at?, Option.or_eq_some_iff, Option.map_eq_some_iff] at hs
    rcases hs with ⟨y, hy, rfl⟩ | ⟨-, o, -, rfl⟩
    · exact at?_archetype.mpr (archetypes_resolveOverrides h hy)
    · exact absurd rfl (hx o)
  | _ => exact hs

/-- What is in a place stays there in a run. -/
theorem extends_after (h : c.Disjoint) (calls : List Call) : c.Extends (c.after calls) :=
  (invariant (I := fun d => c.Extends d ∧ d.Disjoint)
    (fun hI hput => ⟨hI.1.trans (extends_put hput), disjoint_put hI.2 hput⟩)
    (fun hI => ⟨hI.1.trans (extends_resolveOverrides hI.2), disjoint_resolveOverrides _⟩)
    ⟨.refl c, h⟩ calls).1

/-! ### Look-ups -/

/-- What a look-up finds in `c`, it finds in `c'`. Policy definitions and set definitions are
looked up by name and version. -/
structure Keeps (c c' : Catalog) : Prop where
  policyDefinition : ∀ name version p, c.policyDefinition? name (some version) = some p →
    c'.policyDefinition? name (some version) = some p
  policySetDefinition : ∀ name version p, c.policySetDefinition? name (some version) = some p →
    c'.policySetDefinition? name (some version) = some p
  policyAssignment : ∀ name x, c.policyAssignments.get? name = some x →
    c'.policyAssignments.get? name = some x
  roleDefinition : ∀ name r, c.roleDefinitions.get? name = some r →
    c'.roleDefinitions.get? name = some r
  archetype : ∀ name x, c.archetypes.get? name = some x → c'.archetypes.get? name = some x
  architecture : ∀ name x, c.architectures.get? name = some x →
    c'.architectures.get? name = some x
  default : ∀ name d, c.defaults.get? name = some d → c'.defaults.get? name = some d

/-- What stays in the places stays in every look-up. -/
theorem Extends.keeps (h : c.Extends c') : c.Keeps c' where
  policyDefinition _ _ _ hp := at?_policyDefinition.mp (h _ _ nofun (at?_policyDefinition.mpr hp))
  policySetDefinition _ _ _ hp :=
    at?_policySetDefinition.mp (h _ _ nofun (at?_policySetDefinition.mpr hp))
  policyAssignment _ _ hx := at?_policyAssignment.mp (h _ _ nofun (at?_policyAssignment.mpr hx))
  roleDefinition _ _ hr := at?_roleDefinition.mp (h _ _ nofun (at?_roleDefinition.mpr hr))
  archetype _ _ hx := at?_archetype.mp (h _ _ nofun (at?_archetype.mpr hx))
  architecture _ _ hx := at?_architecture.mp (h _ _ nofun (at?_architecture.mpr hx))
  default _ _ hd := at?_default.mp (h _ _ nofun (at?_default.mpr hd))

/-- After any calls on the empty catalog, what a look-up finds is found by it after all later
calls. An addition that fails changes nothing, and it fails exactly when its place is taken. No
pending override has the name of an archetype. -/
theorem keeps_after (calls : List Call) :
    let c := empty.after calls
    (∀ later, c.Keeps (c.after later)) ∧
    (∀ a e, (c.call (.add a)).1 = .error e → (c.call (.add a)).2 = c) ∧
    (∀ a, (c.call (.add a)).1 = .ok () ↔ c.at? a.slot = none) ∧
    ∀ name, c.archetypes.get? name = none ∨ c.overrides.get? name = none := by
  intro c
  have hdisjoint : c.Disjoint := disjoint_after disjoint_empty calls
  refine ⟨fun later => (extends_after hdisjoint later).keeps, fun a e he => ?_,
    fun a => call_add_ok_iff, hdisjoint⟩
  rcases c.call_add_cases a with ⟨e', -, hcall⟩ | ⟨c', -, hcall⟩ <;> rw [hcall] at he ⊢
  cases he

end Governance.Catalog
