import Governance.Proofs.Catalog.Loading

/-!
# `Governance.Proofs.Catalog.Answers`: what definitions are found after a run of calls

A place holds the first addition that was made to it (`Catalog.at?_after`). Later additions to the
place fail, and a resolution of overrides touches no other places than those of archetypes. So the
look-ups of policy definitions and set definitions can be said with the list of all definitions
that were given to calls, those of failed calls included (`FindsAdded`):

* an addition fails exactly when one of the same name and version was made before;
* a look-up of a version finds the first definition that was added under this name and version;
* a look-up without a version finds a definition above which none ranks, if the versions of the
  name are numbers between dots.

`findsAdded_after` is the main result. Versions of numbers are in order
(`Version.transitive_of_numeric`), which is all that `Versions.Ranked` asks for.
-/

set_option autoImplicit false

namespace Governance

namespace Version

/-- A version is not above another one exactly if the other one is not below it. -/
theorem compare_ne_gt_iff {v w : Option String} : compare w v ≠ .gt ↔ compare v w ≠ .lt := by
  rw [compare_swap v w, ne_eq, Ordering.swap_eq_gt]

/-- Among versions whose parts are numbers, comparing is transitive. -/
theorem transitive_of_numeric {versions : Option String → Prop}
    (h : ∀ v, versions v → IsNumeric v) : Transitive versions := by
  intro u v w hu hv hw huv hvw
  rw [← compare_ne_gt_iff] at huv hvw ⊢
  exact trans_of_numeric (h w hw) (h v hv) (h u hu) hvw huv

/-- Only no version is not below no version. -/
theorem eq_none_of_compare {v : Option String} (h : compare none v ≠ .lt) : v = none := by
  cases v with
  | none => rfl
  | some v => exact absurd rfl h

end Version

namespace Addition

/-- The policy definition that is added, if it is one. -/
def policyDefinition? : Addition → Option PolicyDefinition
  | .policyDefinition p => some p
  | _ => none

/-- The policy set definition that is added, if it is one. -/
def policySetDefinition? : Addition → Option PolicySetDefinition
  | .policySetDefinition p => some p
  | _ => none

/-- Only the addition of a policy definition adds it. -/
theorem policyDefinition?_eq_some (x : Addition) (p : PolicyDefinition) :
    x.policyDefinition? = some p ↔ x = .policyDefinition p := by
  cases x <;> simp [policyDefinition?]

/-- Only the addition of a policy set definition adds it. -/
theorem policySetDefinition?_eq_some (x : Addition) (p : PolicySetDefinition) :
    x.policySetDefinition? = some p ↔ x = .policySetDefinition p := by
  cases x <;> simp [policySetDefinition?]

end Addition

namespace Catalog

variable {c : Catalog} {calls : List Call}

/-! ### The first addition to a place -/

/-- What a call adds, if it is an addition. -/
def Call.addition? : Call → Option Addition
  | .add a => some a
  | .resolveOverrides => none

/-- The additions among calls, in their order and with those that failed. -/
def additions (calls : List Call) : List Addition := calls.filterMap Call.addition?

/-- A resolution leaves the places that are not for archetypes. -/
theorem at?_resolveOverrides {s : Slot} (hs : ∀ name, s ≠ .archetype name) :
    c.resolveOverrides.2.at? s = c.at? s := by
  cases s with
  | archetype name => exact absurd rfl (hs name)
  | _ => rfl

/-- A call makes an addition if its place is free. -/
theorem at?_call_add (c : Catalog) (a : Addition) (s : Slot) :
    (c.call (.add a)).2.at? s = (c.at? s).or (if a.slot = s then some a else none) := by
  rcases c.call_add_cases a with ⟨e, hput, hcall⟩ | ⟨c', hput, hcall⟩ <;> rw [hcall]
  · split
    · rename_i hs
      -- The place is taken, because the addition failed.
      obtain ⟨x, hx⟩ : ∃ x, c.at? s = some x := by
        refine Option.ne_none_iff_exists'.mp fun hfree => ?_
        obtain ⟨c', hok⟩ := exists_put (hs ▸ hfree)
        cases hput.symm.trans hok
      rw [hx, Option.some_or]
    · rw [Option.or_none]
  · obtain ⟨hfree, hplaces⟩ := put_ok hput
    rw [hplaces]
    by_cases hs : a.slot = s
    · rw [if_pos hs.symm, if_pos hs, ← hs, hfree, Option.none_or]
    · rw [if_neg (Ne.symm hs), if_neg hs, Option.or_none]

/-- A place that was free has the first addition that was made to it. -/
theorem at?_after {s : Slot} (hs : ∀ name, s ≠ .archetype name) (calls : List Call) :
    (c.after calls).at? s = (c.at? s).or ((additions calls).find? (·.slot = s)) := by
  induction calls generalizing c with
  | nil => exact (Option.or_none).symm
  | cons x rest ih =>
    change ((c.call x).2.after rest).at? s = _
    rw [ih]
    cases x with
    | add a =>
      -- An addition fills its place unless it is taken, and so comes before all later ones.
      rw [at?_call_add, Option.or_assoc]
      congr 1
      change _ = (a :: additions rest).find? _
      by_cases ha : a.slot = s <;> simp [ha]
    | resolveOverrides =>
      -- To resolve overrides makes archetypes, and `s` is no place of an archetype.
      change (c.resolveOverrides.2.at? s).or _ = _
      rw [at?_resolveOverrides hs]
      rfl

/-! ### Definitions with versions -/

/-- What definitions with versions are found after calls, of which `added` are the definitions
that were given to calls, in their order.

- `refused`: one more addition fails exactly when one of the same name and version, or of the same
  name and without a version as well, was made before;
- `pinned`: a look-up of a version finds what was added first under this name and version;
- `missing`: a look-up without a version finds nothing exactly when nothing has the name;
- `latest`: if the versions of the name are numbers between dots, it finds what was added first
  under the name and a version above which no version of the name ranks; and this is no version
  only if nothing of the name has one. -/
structure FindsAdded {α : Type} (name : α → String) (version : α → Option String)
    (added : List α) (refused : α → Prop) (find : String → Option String → Option α) : Prop where
  refused : ∀ a, refused a ↔ ∃ b ∈ added, name b = name a ∧ version b = version a
  pinned : ∀ n v, find n (some v) = added.find? fun a => name a = n ∧ version a = some v
  missing : ∀ n, find n none = none ↔ ∀ a ∈ added, name a ≠ n
  latest : ∀ n, (∀ a ∈ added, name a = n → Version.IsNumeric (version a)) →
    ∀ a, find n none = some a →
      added.find? (fun b => name b = n ∧ version b = version a) = some a ∧
      (∀ b ∈ added, name b = n → Version.compare (version a) (version b) ≠ .lt) ∧
      (version a = none → ∀ b ∈ added, name b = n → version b = none)

namespace VersionTable

variable {α : Type} (T : VersionTable α) {only : Addition → Option α}

/-- The additions of one kind are some of the additions of a run. -/
theorem mem_added (honly : ∀ x a, only x = some a ↔ x = T.add a) {a : α} :
    a ∈ (additions calls).filterMap only ↔ T.add a ∈ additions calls := by
  simp only [List.mem_filterMap, honly, exists_eq_right]

/-- In a place there is the first addition to it. -/
theorem at?_slot_after (hplace : ∀ n v name, T.slot n v ≠ .archetype name) (n : String)
    (v : Option String) :
    (empty.after calls).at? (T.slot n v) = (additions calls).find? (·.slot = T.slot n v) := by
  have hempty : empty.at? (T.slot n v) = none := by
    generalize T.slot n v = s
    cases s <;> rfl
  rw [at?_after (hplace n v), hempty, Option.none_or]

variable (honly : ∀ x a, only x = some a ↔ x = T.add a)
  (hplace : ∀ n v name, T.slot n v ≠ .archetype name)

include honly hplace

/-- A table has under a name and a version what was added first under them. -/
theorem versionAt?_after (n : String) (v : Option String) :
    versionAt? (T.table (empty.after calls)) n v =
      ((additions calls).filterMap only).find? fun a => T.name a = n ∧ T.version a = v := by
  -- The additions to the place are the definitions of the name and the version.
  have hslot : ∀ x : Addition, decide (x.slot = T.slot n v) =
      (only x).any fun a => decide (T.name a = n ∧ T.version a = v) := by
    intro x
    cases hx : only x with
    | none =>
      refine decide_eq_false fun hs => ?_
      obtain ⟨a, rfl⟩ := T.exists_add hs
      simp [(honly _ a).mpr rfl] at hx
    | some a =>
      obtain rfl := (honly x a).mp hx
      simp [T.slot_add]
  ext a
  rw [← T.at?_slot, T.at?_slot_after hplace, List.find?_filterMap, Option.bind_eq_some_iff]
  simp only [hslot, honly, exists_eq_right]

/-- An addition fails if its name and version were added before. -/
theorem call_add_error_iff (a : α) :
    (∃ e, ((empty.after calls).call (.add (T.add a))).1 = .error e) ↔
      ∃ b ∈ (additions calls).filterMap only, T.name b = T.name a ∧ T.version b = T.version a := by
  have hslot : (T.add a).slot = T.slot (T.name a) (T.version a) := T.slot_add.mpr ⟨rfl, rfl⟩
  have herror : (∃ e, ((empty.after calls).call (.add (T.add a))).1 = .error e) ↔
      ¬ ((empty.after calls).call (.add (T.add a))).1 = .ok () := by
    cases ((empty.after calls).call (.add (T.add a))).1 <;> simp
  rw [herror, call_add_ok_iff, hslot, T.at?_slot_after hplace, List.find?_eq_none]
  simp only [not_forall, not_not]
  -- An addition fails exactly if its place is taken, and a place tells the kind, the name and the
  -- version.
  constructor
  · rintro ⟨x, hx, hs⟩
    obtain ⟨b, rfl⟩ := T.exists_add (of_decide_eq_true hs)
    exact ⟨b, (T.mem_added honly).mpr hx, T.slot_add.mp (of_decide_eq_true hs)⟩
  · rintro ⟨b, hb, hs⟩
    exact ⟨T.add b, (T.mem_added honly).mp hb, decide_eq_true (T.slot_add.mpr hs)⟩

/-- The versions of a name are those that were added under it. -/
theorem holds_after_iff {n : String} {v : Option String} :
    versionAt? (T.table (empty.after calls)) n v ≠ none ↔
      ∃ b ∈ (additions calls).filterMap only, T.name b = n ∧ T.version b = v := by
  rw [T.versionAt?_after honly hplace, ne_eq, List.find?_eq_none]
  simp only [not_forall, not_not, decide_eq_true_eq, exists_prop]

/-- All look-ups of a table after calls. -/
theorem findsAdded : FindsAdded T.name T.version ((additions calls).filterMap only)
    (fun a => ∃ e, ((empty.after calls).call (.add (T.add a))).1 = .error e)
    (T.find? (empty.after calls)) where
  refused := T.call_add_error_iff honly hplace
  pinned n v := T.versionAt?_after honly hplace n (some v)
  missing n := by
    change first? (T.table (empty.after calls)) n = none ↔ _
    rw [← Option.not_isSome_iff_eq_none, isSome_first?_iff]
    simp only [T.holds_after_iff honly hplace]
    grind
  latest n hnumeric a ha := by
    -- The ranking compares through versions in between, so it needs them all to be numeric.
    have hranked := T.ranked (ranked_after ranked_empty calls)
    -- What is found without a version is the first entry of a ranked list.
    obtain ⟨v, hv, habove⟩ := exists_of_first? hranked ha
    have hfirst := T.versionAt?_after honly hplace n v ▸ hv
    obtain ⟨-, rfl⟩ : T.name a = n ∧ T.version a = v := by simpa using List.find?_some hfirst
    have hrank : ∀ b ∈ (additions calls).filterMap only, T.name b = n →
        Version.compare (T.version a) (T.version b) ≠ .lt := by
      intro b hb hname
      refine habove (Version.transitive_of_numeric fun w hw => ?_) _
        ((T.holds_after_iff honly hplace).mpr ⟨b, hb, hname, rfl⟩)
      obtain ⟨b', hb', hname', rfl⟩ := (T.holds_after_iff honly hplace).mp hw
      exact hnumeric b' hb' hname'
    refine ⟨hfirst, hrank, fun hnone b hb hname => ?_⟩
    exact Version.eq_none_of_compare (hnone ▸ hrank b hb hname)

end VersionTable

/-! ### Policy definitions and set definitions -/

/-- After any calls on the empty catalog, policy definitions and policy set definitions are found
as they were added. -/
theorem findsAdded_after (calls : List Call) :
    let c := empty.after calls
    FindsAdded PolicyDefinition.name PolicyDefinition.version
      ((additions calls).filterMap Addition.policyDefinition?)
      (fun p => ∃ e, (c.call (.add (.policyDefinition p))).1 = .error e) c.policyDefinition? ∧
    FindsAdded PolicySetDefinition.name PolicySetDefinition.version
      ((additions calls).filterMap Addition.policySetDefinition?)
      (fun p => ∃ e, (c.call (.add (.policySetDefinition p))).1 = .error e)
      c.policySetDefinition? :=
  ⟨VersionTable.policyDefinitions.findsAdded Addition.policyDefinition?_eq_some nofun,
    VersionTable.policySetDefinitions.findsAdded Addition.policySetDefinition?_eq_some
      nofun⟩

end Catalog

end Governance
