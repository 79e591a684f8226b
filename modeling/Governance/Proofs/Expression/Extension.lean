import Governance.Proofs.Expression.Spelling

/-!
# `Governance.Proofs.Expression.Extension`: values stay when parameters are added

The name of a parameter may be computed, and a name that is not there stands for the first one that
is alike. So an added parameter can change a value: it is the very name, or it comes before the one
that was found. It cannot if its name is unlike those that were there before (`Extends`).

* `lookup?_extends`: what was found under a name is still found.
* `value_extends`: a value that an expression had, it still has.
* `evaluate_stays`: so has a text, be it an expression or a literal.

`Stays` compares two results, of which the first may be a failure. It goes through a sequence of
steps (`Stays.bind`), so that only a call of `parameters` needs a word of its own.
-/

set_option autoImplicit false

namespace Governance.Expression

variable {env env' : Environment} {p n k : String} {v : Json}

/-! ### Further parameters -/

/-- `env'` has further parameters, which are unlike those of `env`:

- `keeps`: the parameters of `env` are there with their values;
- `unlike`: the name of any other one differs from each name of `env` in more than the case of
  letters. -/
structure Extends (env env' : Environment) : Prop where
  keeps : ∀ n v, env.get? n = some v → env'.get? n = some v
  unlike : ∀ n k, env.contains n = true → env'.contains k = true → ¬ env.contains k = true →
    ¬ Text.equalIgnoringCase k n = true

/-- A name that was there is there still. -/
theorem Extends.contains (h : Extends env env') (hn : env.contains n = true) :
    env'.contains n = true := by
  obtain ⟨v, hv⟩ := OrderedMap.contains_eq_true.mp hn
  exact OrderedMap.contains_eq_true.mpr ⟨v, h.keeps n v hv⟩

/-- Where one of two like names is an old one, so is the other. -/
theorem Extends.contains_of_alike (h : Extends env env') (hn : env.contains n = true)
    (hk : env'.contains k = true) (halike : Text.equalIgnoringCase k n = true) :
    env.contains k = true := by
  by_contra hold
  exact h.unlike n k hn hk hold halike

/-- One more parameter, unlike those that are there. -/
theorem extends_insert (v : Json)
    (h : ∀ n ∈ env.keys, ¬ Text.equalIgnoringCase k n = true) : Extends env (env.insert k v) where
  keeps n w hn := by
    have hne : n ≠ k := by
      rintro rfl
      exact h n (OrderedMap.mem_keys.mpr ⟨w, hn⟩) (Text.equalIgnoringCase_refl n)
    rwa [OrderedMap.get?_insert_of_ne env v hne]
  unlike n k' hn hk' hold := by
    rw [OrderedMap.contains_insert] at hk'
    obtain rfl := hk'.resolve_right hold
    exact h n (OrderedMap.mem_keys.mpr (OrderedMap.contains_eq_true.mp hn))

/-- The name that is meant is meant still. -/
theorem Spelling.extends (h : Extends env env')
    (hn : Spelling (fun k => env.contains k = true) p n) :
    Spelling (fun k => env'.contains k = true) p n := by
  -- A name of this spelling is not new, since a new one is unlike those that were there.
  have hold : ∀ k, env'.contains k = true → Text.equalIgnoringCase k p = true →
      env.contains k = true := by
    intro k hk halike
    refine h.contains_of_alike hn.mem hk ?_
    rw [Text.equalIgnoringCase_iff] at halike ⊢
    rw [halike, Text.equalIgnoringCase_iff.mp hn.alike]
  exact {
    mem := h.contains hn.mem
    alike := hn.alike
    exact := fun hp => hn.exact (hold p hp (Text.equalIgnoringCase_refl p))
    first := fun hp k hk halike =>
      hn.first (fun hknown => hp (h.contains hknown)) k (hold k hk halike) halike }

/-- What was found under a name is still found. -/
theorem lookup?_extends (h : Extends env env') (hv : lookup? p env.entries = some v) :
    lookup? p env'.entries = some v := by
  obtain ⟨n, hn, hget⟩ := lookup?_eq_some_iff.mp hv
  exact lookup?_eq_some_iff.mpr ⟨n, hn.extends h, h.keeps n v hget⟩

/-! ### Results that stay -/

section Stays

variable {α β ε : Type} {r r' : Except ε α} {f f' : α → Except ε β}

/-- What the first result is, if it is no failure, the second one is, too. -/
def Stays (r r' : Except ε α) : Prop := ∀ a, r = .ok a → r' = .ok a

/-- A result stays what it is. -/
theorem Stays.refl (r : Except ε α) : Stays r r := fun _ h => h

/-- Steps stay if each of them does. -/
theorem Stays.bind (h : Stays r r') (hf : ∀ a, Stays (f a) (f' a)) :
    Stays (r >>= f) (r' >>= f') := by
  intro b hb
  cases hr : r with
  | error e =>
    rw [hr] at hb
    cases hb
  | ok a =>
    rw [hr] at hb
    rw [h a hr]
    exact hf a b hb

end Stays

/-- No other function looks into the environment. -/
theorem apply_of_ne_parameters {f : Builtin} (hf : f ≠ .parameters) (a : Arguments) :
    f.apply env a = f.apply env' a := by
  cases f with
  | parameters => exact absurd rfl hf
  | _ => rfl

/-- What a function gives stays when parameters are added. -/
theorem apply_stays (h : Extends env env') (f : Builtin) (a : Arguments) :
    Stays (f.apply env a) (f.apply env' a) := by
  -- Only the function for parameters looks at them.
  by_cases hf : f = .parameters
  · subst hf
    refine (Stays.refl (a.expect (.exactly 1))).bind fun _ => (Stays.refl (a.text 0)).bind ?_
    intro p v hv
    cases hlookup : lookup? p env.entries with
    | none => simp [hlookup] at hv
    | some w =>
      rw [hlookup] at hv
      rw [lookup?_extends h hlookup]
      exact hv
  · rw [apply_of_ne_parameters hf]
    exact Stays.refl _

/-- What a call by name gives stays when parameters are added. -/
theorem callValue_stays (h : Extends env env') (name : String) (vs : List Json) :
    Stays (callValue env name vs) (callValue env' name vs) := by
  unfold callValue
  split
  · exact apply_stays h _ _
  · exact Stays.refl _

mutual

/-- The value of an expression stays when parameters are added. -/
theorem value_stays (h : Extends env env') : (e : Expression) →
    Stays (value env e) (value env' e)
  | .string _ => Stays.refl _
  | .integer _ => Stays.refl _
  | .property target _ => (value_stays h target).bind fun _ => Stays.refl _
  | .index target i =>
    (value_stays h target).bind fun _ => (value_stays h i).bind fun _ => Stays.refl _
  | .call name args => by
    unfold value
    split
    · split
      next condition yes no =>
        -- The condition keeps its value, so the same branch is taken.
        refine (value_stays h condition).bind fun c => ?_
        split
        · exact value_stays h yes
        · exact value_stays h no
        · exact Stays.refl _
      next => exact Stays.refl _
    · exact (values_stay h args).bind fun _ => callValue_stays h name _

/-- The values of expressions stay when parameters are added. -/
theorem values_stay (h : Extends env env') : (es : List Expression) →
    Stays (values env es) (values env' es)
  | [] => Stays.refl _
  | e :: rest => (value_stays h e).bind fun _ => (values_stay h rest).bind fun _ => Stays.refl _

end

/-- The value of a text stays. -/
theorem evaluate_stays (h : Extends env env') (s : String) :
    Stays (evaluate env s) (evaluate env' s) := by
  unfold evaluate
  split
  · exact Stays.refl _
  · split
    · exact value_stays h _
    · exact Stays.refl _

/-- A value that an expression had, it has with further parameters, too. -/
theorem value_extends (h : Extends env env') {e : Expression} (hv : value env e = .ok v) :
    value env' e = .ok v := value_stays h e v hv

namespace Sample

/-- An environment with one parameter. -/
def named : Environment := .ofList [("Name", .string "x")]

/-- The parameter, asked for in capitals and by a name that is put together; the branch that is not
taken asks for another one. -/
def conditional : Expression :=
  .call "if"
    [.call "equals" [.call "parameters" [.string "NAME"], .string "x"],
     .call "parameters" [.call "concat" [.string "na", .string "me"]],
     .call "parameters" [.string "names"]]

end Sample

/-- `NAMES` comes before `Name`, and no value changes. -/
theorem value_extends_conditional :
    Extends Sample.named (Sample.named.insert "NAMES" .null) ∧
    value Sample.named Sample.conditional = .ok (.string "x") ∧
    value (Sample.named.insert "NAMES" .null) Sample.conditional = .ok (.string "x") := by
  have hextends : Extends Sample.named (Sample.named.insert "NAMES" .null) :=
    extends_insert .null (by decide)
  have hvalue : value Sample.named Sample.conditional = .ok (.string "x") := by rfl
  exact ⟨hextends, hvalue, value_extends hextends hvalue⟩

end Governance.Expression
