import Governance.Catalog.Source

/-!
# `Governance.Proofs.Source`: what a source can be relied on for

A source may answer a look-up from any state, may fail, and may turn the signal to stop on
while it answers. A statement about a hierarchy names how much of this it excludes:

* `AssetSource.Consistent`: two answers to one question agree, whenever they are given. A
  look-up may still fail at one time and answer at another.
* `AssetSource.Steady`: the outcome of a look-up, a failure too, does not depend on the
  state.
* `AssetSource.Unfired`: from a state on, the signal to stop is not given, whatever is asked.
* `AssetSource.AnswersAgain`: from one state the source answers as it does from another one,
  so that a call can be made again under the same answers.
* `AssetSource.AnswersAs`: every look-up answers what a catalog holds. The signal to stop is
  free.

`AssetSource.Every` states a property of each look-up of a source once.
`Catalog.source_answersAs` and `Catalog.source_unfired` say what a catalog by itself gives.
`Sample.catalog` and `Sample.suiteCatalog` are small catalogs that later statements are tried
on.
-/

set_option autoImplicit false

namespace Governance

variable {σ α : Type}

namespace LookUp

/-- In some state, `a` is the answer. -/
def Answers (l : LookUp σ α) (a : α) : Prop := ∃ s, (l s).1 = .ok (some a)

/-- Two answers agree. -/
def Consistent (l : LookUp σ α) : Prop :=
  ∀ s s' a b, (l s).1 = .ok a → (l s').1 = .ok b → a = b

/-- The outcome is the same in all states. -/
def Steady (l : LookUp σ α) : Prop := ∀ s s', (l s).1 = (l s').1

/-- Asking in a state of `I` leaves the source in a state of `I`. -/
def Keeps (I : σ → Prop) (l : LookUp σ α) : Prop := ∀ s, I s → I (l s).2

/-- In states that `R` ties, asking has the same outcome and leaves such states. -/
def Repeats (R : σ → σ → Prop) (l : LookUp σ α) : Prop :=
  ∀ s s', R s s' → (l s').1 = (l s).1 ∧ R (l s).2 (l s').2

/-- A consistent look-up has one answer. -/
theorem Consistent.eq_of_answers {l : LookUp σ α} (h : l.Consistent) {a b : α}
    (ha : l.Answers a) (hb : l.Answers b) : a = b := by
  obtain ⟨s, hs⟩ := ha
  obtain ⟨s', hs'⟩ := hb
  exact Option.some.inj (h s s' _ _ hs hs')

/-- An answer is the outcome, where there is one outcome in all states. -/
theorem Answers.eq_some {l : LookUp σ α} {a : α} (h : l.Answers a) {o : Option α}
    (ho : ∀ s, (l s).1 = .ok o) : o = some a := by
  obtain ⟨s, hs⟩ := h
  exact Except.ok.inj ((ho s).symm.trans hs)

/-- Where there is one outcome in all states, of which `s` is one, it is the only answer. -/
theorem answers_iff {l : LookUp σ α} {o : Option α} (ho : ∀ s, (l s).1 = .ok o) (s : σ) {a : α} :
    l.Answers a ↔ o = some a := by
  refine ⟨fun h => h.eq_some ho, ?_⟩
  rintro rfl
  exact ⟨s, ho s⟩

/-- A steady look-up always has the answer that it has at some time. -/
theorem Steady.always {l : LookUp σ α} (hl : l.Steady) {a : α} (h : l.Answers a) (s : σ) :
    (l s).1 = .ok (some a) := by
  obtain ⟨s', hs'⟩ := h
  rw [hl s s', hs']

/-- A steady look-up is consistent. -/
theorem Steady.consistent {l : LookUp σ α} (h : l.Steady) : l.Consistent := by
  intro s s' a b ha hb
  rw [h s s', hb] at ha
  exact (Except.ok.inj ha).symm

end LookUp

namespace AssetSource

/-- `P` holds of each look-up of the source. -/
structure Every (src : AssetSource σ) (P : ∀ {α : Type}, LookUp σ α → Prop) : Prop where
  policyDefinition : ∀ name version, P (src.policyDefinition name version)
  policySetDefinition : ∀ name version, P (src.policySetDefinition name version)
  policyAssignment : ∀ name, P (src.policyAssignment name)
  roleDefinition : ∀ name, P (src.roleDefinition name)
  archetype : ∀ name, P (src.archetype name)
  architecture : ∀ name, P (src.architecture name)
  defaultMapping : ∀ name, P (src.defaultMapping name)

/-- Two answers to one question agree. -/
def Consistent (src : AssetSource σ) : Prop := src.Every LookUp.Consistent

/-- The outcomes of look-ups do not depend on the state. -/
def Steady (src : AssetSource σ) : Prop := src.Every LookUp.Steady

/-- Asking in a state of `I` leaves the source in a state of `I`. -/
def Keeps (src : AssetSource σ) (I : σ → Prop) : Prop := src.Every (LookUp.Keeps I)

/-- From `s` on the signal to stop is not given: `s` is in a set of states without the
signal that no look-up leads out of. -/
def Unfired (src : AssetSource σ) (s : σ) : Prop :=
  ∃ quiet : σ → Prop, src.Keeps quiet ∧ (∀ s, quiet s → src.stopped s = false) ∧ quiet s

/-- From `s'` the source answers as it does from `s`, whatever it is asked and in whatever
order, and it gives the signal to stop at no earlier time. -/
def AnswersAgain (src : AssetSource σ) (s s' : σ) : Prop :=
  ∃ R : σ → σ → Prop, src.Every (LookUp.Repeats R) ∧
    (∀ s s', R s s' → src.stopped s' = true → src.stopped s = true) ∧ R s s'

/-- Every look-up answers what the catalog holds. -/
structure AnswersAs (src : AssetSource σ) (c : Catalog) : Prop where
  policyDefinition : ∀ name version s,
    (src.policyDefinition name version s).1 = .ok (c.policyDefinition? name version)
  policySetDefinition : ∀ name version s,
    (src.policySetDefinition name version s).1 = .ok (c.policySetDefinition? name version)
  policyAssignment : ∀ name s,
    (src.policyAssignment name s).1 = .ok (c.policyAssignments.get? name)
  roleDefinition : ∀ name s, (src.roleDefinition name s).1 = .ok (c.roleDefinitions.get? name)
  archetype : ∀ name s, (src.archetype name s).1 = .ok (c.archetypes.get? name)
  architecture : ∀ name s, (src.architecture name s).1 = .ok (c.architectures.get? name)
  defaultMapping : ∀ name s, (src.defaultMapping name s).1 = .ok (c.defaults.get? name)

/-- The outcomes of a catalog do not depend on the state. -/
theorem AnswersAs.steady {src : AssetSource σ} {c : Catalog} (h : src.AnswersAs c) :
    src.Steady where
  policyDefinition name version s s' :=
    (h.policyDefinition name version s).trans (h.policyDefinition name version s').symm
  policySetDefinition name version s s' :=
    (h.policySetDefinition name version s).trans (h.policySetDefinition name version s').symm
  policyAssignment name s s' :=
    (h.policyAssignment name s).trans (h.policyAssignment name s').symm
  roleDefinition name s s' := (h.roleDefinition name s).trans (h.roleDefinition name s').symm
  archetype name s s' := (h.archetype name s).trans (h.archetype name s').symm
  architecture name s s' := (h.architecture name s).trans (h.architecture name s').symm
  defaultMapping name s s' := (h.defaultMapping name s).trans (h.defaultMapping name s').symm

/-- A steady source is consistent. -/
theorem Steady.consistent {src : AssetSource σ} (h : src.Steady) : src.Consistent where
  policyDefinition name version := (h.policyDefinition name version).consistent
  policySetDefinition name version := (h.policySetDefinition name version).consistent
  policyAssignment name := (h.policyAssignment name).consistent
  roleDefinition name := (h.roleDefinition name).consistent
  archetype name := (h.archetype name).consistent
  architecture name := (h.architecture name).consistent
  defaultMapping name := (h.defaultMapping name).consistent

/-- Without the signal to stop, a steady source answers as it does from anywhere. -/
theorem Steady.answersAgain {src : AssetSource σ} (h : src.Steady) (s : σ) {s' : σ}
    (hs' : src.Unfired s') : src.AnswersAgain s s' := by
  obtain ⟨quiet, hkeeps, hquiet, hs'⟩ := hs'
  -- Of the second state only, it matters that no signal is given from there on.
  refine ⟨fun _ t => quiet t, ?_, fun _ t ht hstop => by simp [hquiet t ht] at hstop, hs'⟩
  exact {
    policyDefinition := fun name version t t' ht =>
      ⟨h.policyDefinition name version t' t, hkeeps.policyDefinition name version t' ht⟩
    policySetDefinition := fun name version t t' ht =>
      ⟨h.policySetDefinition name version t' t, hkeeps.policySetDefinition name version t' ht⟩
    policyAssignment := fun name t t' ht =>
      ⟨h.policyAssignment name t' t, hkeeps.policyAssignment name t' ht⟩
    roleDefinition := fun name t t' ht =>
      ⟨h.roleDefinition name t' t, hkeeps.roleDefinition name t' ht⟩
    archetype := fun name t t' ht => ⟨h.archetype name t' t, hkeeps.archetype name t' ht⟩
    architecture := fun name t t' ht => ⟨h.architecture name t' t, hkeeps.architecture name t' ht⟩
    defaultMapping := fun name t t' ht =>
      ⟨h.defaultMapping name t' t, hkeeps.defaultMapping name t' ht⟩ }

/-- No state is excluded, so every look-up keeps to it. -/
theorem keeps_true (src : AssetSource σ) : src.Keeps fun _ => True := by
  constructor <;> intros <;> exact fun _ _ => trivial

end AssetSource

namespace Catalog

/-- A catalog answers what it holds, also where a look-up is a signal to stop. -/
theorem watchedSource_answersAs (c : Catalog) (stopping : List String) :
    (c.watchedSource ⟨[], stopping⟩).AnswersAs c := by
  constructor <;> intros <;> rfl

/-- The source of a catalog answers as the catalog does. -/
theorem source_answersAs (c : Catalog) : c.source.AnswersAs c := watchedSource_answersAs c []

/-- A catalog that is not watched gives no signal to stop of its own. -/
theorem source_unfired (c : Catalog) : c.source.Unfired false := by
  refine ⟨fun stopped => stopped = false, ?_, fun _ h => h, rfl⟩
  constructor <;> intros <;> rintro s rfl <;> rfl

end Catalog

/-- A result that is there is no failure. -/
theorem ok_of_toOption {ε α : Type} {e : Except ε α} {a : α} (h : e.toOption = some a) :
    e = .ok a := by
  cases e with
  | error _ => cases h
  | ok _ => rw [Option.some.inj h]

/-! ### Small catalogs

`Sample.catalog` has one policy definition, an assignment of it, and an archetype for each of
the two. `Sample.lineCatalog` has an architecture more. `Sample.suiteCatalog` has a set
definition with a definition that asks for a role. `Sample.role` is a role definition, which other
catalogs hold. -/

namespace Sample

/-- A policy definition without parameters, which asks for no roles. -/
def audit : PolicyDefinition where
  name := "audit"
  id := none
  resourceType := ResourceType.policyDefinition
  properties := ⟨none, none, none, none, none, none, {}, .null⟩

/-- An assignment that refers to `audit` as if it were built in. -/
def assignment : PolicyAssignment where
  name := "assign-audit"
  id := none
  resourceType := ResourceType.policyAssignment
  location := none
  identity := none
  properties := ⟨none, none, "/providers/Microsoft.Authorization/policyDefinitions/audit", none,
    none, [], {}, none, none, [], [], []⟩

/-- The archetype `holder` has the definition, and `user` has the assignment. -/
def catalog : Catalog :=
  { Catalog.empty with
    policyDefinitions := .ofList [("audit", Versions.empty.insert none audit)]
    policyAssignments := .ofList [("assign-audit", assignment)]
    archetypes := .ofList [
      ("holder", ⟨"holder", .ofList ["audit"], {}, {}, {}⟩),
      ("user", ⟨"user", {}, {}, .ofList ["assign-audit"], {}⟩)] }

/-- Three places in a line, of which the first has the definition and the last the
assignment. -/
def line : Architecture where
  name := "line"
  roots := [.node ⟨"root", "Root", true, .ofList ["holder"]⟩
    [.node ⟨"middle", "Middle", false, {}⟩ [.node ⟨"leaf", "Leaf", false, .ofList ["user"]⟩ []]]]

/-- The catalog with `line` as its only architecture. -/
def lineCatalog : Catalog :=
  { catalog with architectures := .ofList [("line", line)] }

/-- A policy definition that asks for a role, also at the workspace that its parameter names. -/
def deploy : PolicyDefinition where
  name := "deploy"
  id := none
  resourceType := ResourceType.policyDefinition
  properties := ⟨none, none, none, none, none, none,
    .ofList [("workspace", ⟨"String", none, none, some ⟨none, none, true, {}⟩⟩)],
    .object [("then", .object [("details", .object [
      ("roleDefinitionIds", .array [.string "contributor"])])])]⟩

/-- A member that refers to `deploy`. -/
def deployMember (label workspace : String) : SetMember where
  policyDefinitionId := "/providers/Microsoft.Authorization/policyDefinitions/deploy"
  referenceId := some label
  definitionVersion := none
  parameters := .ofList [("workspace", .string workspace)]
  groupNames := none

/-- A set definition with `deploy` as two members, one of them with a text that is no
expression. -/
def suite : PolicySetDefinition where
  name := "suite"
  id := none
  resourceType := ResourceType.policySetDefinition
  properties := ⟨none, none, none, none, none, {},
    [deployMember "named" "[parameters('target')]", deployMember "broken" "[parameters(]"], none⟩

/-- An assignment of the set definition, with an identity. -/
def suiteAssignment : PolicyAssignment where
  name := "assign-suite"
  id := none
  resourceType := ResourceType.policyAssignment
  location := none
  identity := some ⟨.systemAssigned, {}⟩
  properties := ⟨none, none, "/providers/Microsoft.Authorization/policySetDefinitions/suite", none,
    none, [], .ofList [("target", .string "/subscriptions/logs")], none, none, [], [], []⟩

/-- A role definition under a role name. -/
def role (roleName : String) : RoleDefinition where
  name := "role"
  id := none
  resourceType := ResourceType.roleDefinition
  properties := ⟨roleName, none, none, [⟨["*/read"], [], [], []⟩], []⟩

/-- The archetype `owner` has the two definitions and the assignment. -/
def suiteCatalog : Catalog :=
  { Catalog.empty with
    policyDefinitions := .ofList [("deploy", Versions.empty.insert none deploy)]
    policySetDefinitions := .ofList [("suite", Versions.empty.insert none suite)]
    policyAssignments := .ofList [("assign-suite", suiteAssignment)]
    archetypes := .ofList [("owner",
      ⟨"owner", .ofList ["deploy"], .ofList ["suite"], .ofList ["assign-suite"], {}⟩)] }

end Sample

end Governance
