import Governance.Hierarchy.Derivation
import Governance.Proofs.Expression.Spelling
import Governance.Proofs.Source

/-!
# `Governance.Proofs.Hierarchy.Environment`: what a member of a set finds under a name

The members of a set find the values of the assignment laid over the defaults of the set
(`Query.memberEnvironment`). A value is laid over the default of the very same name, while an
expression that names no parameter takes the first one whose name differs from its own in the case
of letters only. So up to three spellings meet: that of the default, that of the assignment and that
of the expression. `Expression.Spelling` says which of the names that are there is the one in
question.

* `Query.evaluate_memberEnvironment`: where the assignment supplies some spelling of the name, the
  expression has a value. It is the one that the assignment supplies under the name in question, or
  the default of that name if the assignment supplies none under it.
* `Query.default_over_assigned`: a default of the exact spelling is found before a value that the
  assignment supplies under another spelling.
-/

set_option autoImplicit false

namespace Governance

/-! ### Defaults and assigned values -/

/-- The assignment supplies a value under the name. -/
def PolicyAssignment.Supplies (a : PolicyAssignment) (name : String) : Prop :=
  (a.parameterValue? name).isSome = true

instance (a : PolicyAssignment) (name : String) : Decidable (a.Supplies name) :=
  inferInstanceAs (Decidable (_ = true))

/-- The set has a default under the name. -/
def PolicySetDefinition.HasDefault (p : PolicySetDefinition) (name : String) : Prop :=
  (p.defaultValues.get? name).isSome = true

namespace Query

variable {set : PolicySetDefinition} {a : PolicyAssignment} {p q : String}

/-- A member reads the value that is assigned, and else the default of the set. -/
theorem get?_memberEnvironment (set : PolicySetDefinition) (a : PolicyAssignment) (name : String) :
    (memberEnvironment set a).get? name =
      (a.parameterValue? name).or (set.defaultValues.get? name) := by
  rw [memberEnvironment, OrderedMap.get?_override]
  rfl

/-- The names are those that are assigned and those with a default. -/
theorem contains_memberEnvironment (set : PolicySetDefinition) (a : PolicyAssignment)
    (name : String) : (memberEnvironment set a).contains name = true ↔
      a.Supplies name ∨ set.HasDefault name := by
  rw [OrderedMap.contains, get?_memberEnvironment, Option.isSome_or, Bool.or_eq_true]
  rfl

/-- Where the assignment supplies some spelling of a name, a member that passes the name on passes
the value of the spelling that is meant: the one that the assignment supplies under it, or else the
default of it. So no default is passed on where the assignment supplies each spelling of the name
that has one. -/
theorem evaluate_memberEnvironment (set : PolicySetDefinition)
    (hq : Text.equalIgnoringCase q p = true) (hsupplies : a.Supplies q) :
    ∃ n v, Expression.Spelling (fun k => a.Supplies k ∨ set.HasDefault k) p n ∧
      Expression.evaluate (memberEnvironment set a) (Expression.parameterCall p) = .ok v ∧
      (a.parameterValue? n = some v ∨
        ¬ a.Supplies n ∧ set.defaultValues.get? n = some v) ∧
      ((∀ k, Text.equalIgnoringCase k p = true → set.HasDefault k → a.Supplies k) →
        a.parameterValue? n = some v) := by
  have hcontains : (fun k => (memberEnvironment set a).contains k = true) =
      fun k => a.Supplies k ∨ set.HasDefault k :=
    funext fun k => propext (contains_memberEnvironment set a k)
  have hknown : (memberEnvironment set a).contains q = true :=
    (contains_memberEnvironment set a q).mpr (Or.inl hsupplies)
  obtain ⟨v, hlookup⟩ := Expression.exists_lookup? hknown hq
  obtain ⟨n, hn, hv⟩ := Expression.lookup?_eq_some_iff.mp hlookup
  have heval := Expression.evaluate_parameterCall_iff.mpr ⟨n, hn, hv⟩
  rw [hcontains] at hn
  rw [get?_memberEnvironment] at hv
  -- Under the name that is meant, the assigned value lies over the default.
  cases hvalue : a.parameterValue? n with
  | some w =>
    rw [hvalue, Option.some_or] at hv
    exact ⟨n, v, hn, heval, Or.inl (hvalue.trans hv), fun _ => hvalue.trans hv⟩
  | none =>
    rw [hvalue, Option.none_or] at hv
    have hnot : ¬ a.Supplies n := by simp [PolicyAssignment.Supplies, hvalue]
    refine ⟨n, v, hn, heval, Or.inr ⟨hnot, hv⟩, fun hall => ?_⟩
    have hdefault : set.HasDefault n := by simp [PolicySetDefinition.HasDefault, hv]
    exact absurd (hall n hn.alike hdefault) hnot

end Query

/-! ### A default under another spelling -/

namespace Sample

/-- A set with a default for `Target`. -/
def targeted : PolicySetDefinition :=
  { suite with
    properties := { suite.properties with
      parameters := .ofList
        [("Target", ⟨"String", some (.string "/subscriptions/default"), none, none⟩)] } }

end Sample

namespace Query

/-- The name is the one that the assignment supplies, whatever default the set has for another
spelling of it. -/
theorem evaluate_memberEnvironment_targeted :
    Text.equalIgnoringCase "target" "target" = true ∧ Sample.suiteAssignment.Supplies "target" ∧
    ∃ n v, Expression.Spelling (fun k => Sample.suiteAssignment.Supplies k ∨
        Sample.targeted.HasDefault k) "target" n ∧
      Expression.evaluate (memberEnvironment Sample.targeted Sample.suiteAssignment)
        (Expression.parameterCall "target") = .ok v ∧
      (Sample.suiteAssignment.parameterValue? n = some v ∨
        ¬ Sample.suiteAssignment.Supplies n ∧ Sample.targeted.defaultValues.get? n = some v) ∧
      ((∀ k, Text.equalIgnoringCase k "target" = true → Sample.targeted.HasDefault k →
        Sample.suiteAssignment.Supplies k) →
          Sample.suiteAssignment.parameterValue? n = some v) := by
  have hsupplies : Sample.suiteAssignment.Supplies "target" := by decide
  have halike := Text.equalIgnoringCase_refl "target"
  exact ⟨halike, hsupplies, evaluate_memberEnvironment Sample.targeted halike hsupplies⟩

/-- The assignment supplies `target`, and yet `[parameters('Target')]` is the default of the set. -/
theorem default_over_assigned :
    Text.equalIgnoringCase "target" "Target" = true ∧
    Sample.suiteAssignment.Supplies "target" ∧
    Expression.evaluate (memberEnvironment Sample.targeted Sample.suiteAssignment)
      (Expression.parameterCall "Target") = .ok (.string "/subscriptions/default") ∧
    ¬ ∃ k, Sample.suiteAssignment.parameterValue? k = some (.string "/subscriptions/default") := by
  refine ⟨by decide, by decide, Expression.evaluate_parameterCall ?_, ?_⟩
  · rw [get?_memberEnvironment]
    rfl
  · -- The one value that is assigned is another one.
    rintro ⟨k, hk⟩
    have hentries : Sample.suiteAssignment.properties.parameters.entries =
        [("target", .string "/subscriptions/logs")] := rfl
    have hmem := OrderedMap.get?_eq_some_iff.mp hk
    rw [hentries] at hmem
    simp at hmem

end Query

end Governance
