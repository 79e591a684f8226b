import Governance.Hierarchy.Derivation
import Governance.Proofs.Hierarchy.Assets

/-!
# `Governance.Proofs.Hierarchy.Demands`: what a derivation finds

An assignment with an identity refers to one definition, or through a set definition to one
for each member. Each of them makes a `Demand`: the definition that the source answered, and
the values that the assignment or the member supplies for its parameters. `DemandsOf` ties
the demands of an assignment to the answers of the source in the pinned versions.

Every query of a derivation is bounded by its demands, from `forDefinition_answers` outward:
when `deriveAll` gives an answer, that answer is `Group.findings` for each group, and nothing
else (`deriveAll_answers`). The findings of one demand are read off in two lemmas:

* `Demand.mem_grants_findings`: the grants are those of its roles, at the group and at each
  scope that a parameter of the same demand gives (`Demand.GivesScope`).
* `Demand.errors_findings`: the errors are the parameters whose value is no scope
  (`Demand.errors`), one for each in the order of their names.
-/

set_option autoImplicit false

namespace Governance

variable {σ : Type} {src : AssetSource σ} {I : σ → Prop}

/-! ### Demands -/

/-- What an assignment demands on account of one definition. -/
structure Demand where
  definition : PolicyDefinition
  /-- The member of a set that refers to the definition. -/
  reference : Option String
  /-- What is supplied for a parameter: a value, or a text that cannot be evaluated. -/
  supplied : String → Option (Except ExpressionError Json)

/-- The value that a member of a set supplies. A text is an expression or a literal. -/
def suppliedValue (env : Expression.Environment) : Json → Except ExpressionError Json
  | .string s => Expression.evaluate env s
  | v => .ok v

namespace Demand

/-- The demand of an assignment that refers to a definition directly. Null and the empty text
are no values. -/
def direct (a : PolicyAssignment) (p : PolicyDefinition) : Demand :=
  ⟨p, none, fun parameter =>
    ((a.parameterValue? parameter).filter fun v => !countsAsMissing v).map .ok⟩

/-- The demand of an assignment that refers to a set, on account of one member. -/
def member (a : PolicyAssignment) (set : PolicySetDefinition) (m : SetMember)
    (p : PolicyDefinition) : Demand :=
  ⟨p, some m.label, fun parameter =>
    (m.parameters.get? parameter).map (suppliedValue (Query.memberEnvironment set a))⟩

/-- A parameter that asks for permissions has the text of an identifier as its value. -/
def GivesScope (d : Demand) (scope : String) : Prop :=
  ∃ e ∈ d.definition.assignPermissionsParameters,
    d.supplied e.1 = some (.ok (.string scope)) ∧ ∃ id, ResourceId.parse scope = .ok id

/-- Why a supplied value is no scope. -/
def fault? : Except ExpressionError Json → Option String
  | .error e => some e.message
  | .ok (.string id) =>
    match ResourceId.parse id with
    | .ok _ => none
    | .error e => some (s!"`{id}` is not a resource id: " ++ e.message)
  | .ok v => some ("expected a resource id string, got `" ++ v.compact ++ "`")

/-- The parameters of a demand that have a value and give no scope, if the definition asks for
roles at all. -/
def errors (d : Demand) (group assignment : String) : List DerivationError :=
  if d.definition.roleDefinitionIds.isEmpty then []
  else d.definition.assignPermissionsParameters.filterMap fun e =>
    ((d.supplied e.1).bind fault?).map fun reason =>
      ⟨group, assignment, e.1, d.reference, d.definition.roleDefinitionIds, reason⟩

end Demand

/-- The demand on account of a member, for a definition that is an answer of the source in the
version that the member pins. -/
def IsMemberDemand (src : AssetSource σ) (a : PolicyAssignment) (set : PolicySetDefinition)
    (m : SetMember) (d : Demand) : Prop :=
  ∃ name p, m.definitionName = .ok name ∧
    (src.policyDefinition name m.definitionVersion).Answers p ∧ d = .member a set m p

/-- The demands of an assignment, for definitions that are answers of the source in the pinned
versions. -/
inductive DemandsOf (src : AssetSource σ) (a : PolicyAssignment) : List Demand → Prop
  | noIdentity (hidentity : a.usesManagedIdentity = false) : DemandsOf src a []
  | direct {name : String} {p : PolicyDefinition} (hidentity : a.usesManagedIdentity = true)
    (htarget : a.referencedDefinition = .ok (.definition name))
    (hp : (src.policyDefinition name a.properties.definitionVersion).Answers p) :
    DemandsOf src a [.direct a p]
  | set {name : String} {set : PolicySetDefinition} {ds : List Demand}
    (hidentity : a.usesManagedIdentity = true)
    (htarget : a.referencedDefinition = .ok (.setDefinition name))
    (hset : (src.policySetDefinition name a.properties.definitionVersion).Answers set)
    (hds : List.Forall₂ (IsMemberDemand src a set) set.properties.members ds) :
    DemandsOf src a ds

/-- A consistent source leaves no choice: an assignment has one list of demands. -/
theorem DemandsOf.unique (hsrc : src.Consistent) {a : PolicyAssignment} {ds ds' : List Demand}
    (h : DemandsOf src a ds) (h' : DemandsOf src a ds') : ds = ds' := by
  cases h with
  | noIdentity hidentity =>
    cases h' with
    | noIdentity => rfl
    | direct hidentity' | set hidentity' => simp [hidentity] at hidentity'
  | direct hidentity htarget hp =>
    cases h' with
    | noIdentity hidentity' => simp [hidentity] at hidentity'
    | direct _ htarget' hp' =>
      cases htarget.symm.trans htarget'
      rw [(hsrc.policyDefinition _ _).eq_of_answers hp hp']
    | set _ htarget' => simp [htarget] at htarget'
  | set hidentity htarget hset hds =>
    cases h' with
    | noIdentity hidentity' => simp [hidentity] at hidentity'
    | direct _ htarget' => simp [htarget] at htarget'
    | set _ htarget' hset' hds' =>
      cases htarget.symm.trans htarget'
      obtain rfl := (hsrc.policySetDefinition _ _).eq_of_answers hset hset'
      -- Member by member, both lists have the demand for the one answer.
      clear hset hset'
      generalize PolicySetDefinitionProperties.members _ = members at hds hds'
      induction hds generalizing ds' with
      | nil => cases hds'; rfl
      | cons hd _ ih =>
        cases hds' with
        | cons hd' hrest' =>
          obtain ⟨name, p, hname, hp, rfl⟩ := hd
          obtain ⟨name', p', hname', hp', rfl⟩ := hd'
          cases hname.symm.trans hname'
          rw [(hsrc.policyDefinition _ _).eq_of_answers hp hp', ih hrest']

/-! ### Findings -/

namespace Findings

/-- Joined findings have the grants of all parts. -/
@[simp] theorem grants_join (parts : List Findings) :
    (join parts).grants = parts.flatMap Findings.grants := by
  induction parts with
  | nil => rfl
  | cons part rest ih =>
    rw [List.flatMap_cons, ← ih]
    rfl

/-- Joined findings have the errors of all parts. -/
@[simp] theorem errors_join (parts : List Findings) :
    (join parts).errors = parts.flatMap Findings.errors := by
  induction parts with
  | nil => rfl
  | cons part rest ih =>
    rw [List.flatMap_cons, ← ih]
    rfl

/-- Members without findings add nothing. -/
theorem join_filterMap (parts : List (Option Findings)) :
    join (parts.filterMap id) = join (parts.map fun part => part.getD .none) := by
  induction parts with
  | nil => rfl
  | cons part rest ih =>
    cases part with
    | none => exact ih
    | some f => exact congrArg (append f) ih

end Findings

/-- The findings for a definition whose parameters get what `scope` says. -/
def GrantSite.found (site : GrantSite) (p : PolicyDefinition)
    (scope : String → Option ScopeOutcome) : Findings :=
  .append ⟨site.grantsAt p.roleDefinitionIds site.group.resourceId, []⟩
    (.join (p.assignPermissionsParameters.map fun e =>
      site.findings p.roleDefinitionIds e.1 ((scope e.1).getD .absent)))

namespace Demand

/-- What a parameter with a supplied value gives. -/
def outcome : Except ExpressionError Json → ScopeOutcome
  | .ok v => scopeOf v
  | .error e => .unusable e.message

/-- The findings for a demand. -/
def findings (g : Group) (assignment : String) (d : Demand) : Findings :=
  if d.definition.roleDefinitionIds.isEmpty then .none
  else GrantSite.found ⟨g, assignment, d.reference⟩ d.definition fun parameter =>
    (d.supplied parameter).map outcome

/-- The findings for a demand of roles, where `scope` is what its parameters give. -/
theorem findings_eq_found {g : Group} {assignment : String} {d : Demand}
    {scope : String → Option ScopeOutcome}
    (hroles : ¬ d.definition.roleDefinitionIds.isEmpty = true)
    (hscope : ∀ parameter, (d.supplied parameter).map outcome = scope parameter) :
    d.findings g assignment = GrantSite.found ⟨g, assignment, d.reference⟩ d.definition scope := by
  rw [findings, if_neg hroles, funext hscope]

/-- What a demand of an assignment supplies is what the derivation reads in the assignment. -/
theorem map_outcome_direct (a : PolicyAssignment) (p : PolicyDefinition) (parameter : String) :
    ((direct a p).supplied parameter).map outcome = Query.directScope a parameter := by
  rw [direct, Option.map_map, Query.directScope]
  rfl

/-- What a demand of a member supplies is what the derivation evaluates for the member. -/
theorem map_outcome_member (a : PolicyAssignment) (set : PolicySetDefinition) (m : SetMember)
    (p : PolicyDefinition) (parameter : String) :
    ((member a set m p).supplied parameter).map outcome =
      (m.parameters.get? parameter).map (scopeOfSupplied (Query.memberEnvironment set a)) := by
  rw [member, Option.map_map]
  refine congrArg (Option.map · _) (funext fun v => ?_)
  cases v <;> rfl

/-- A value gives the scope that it is the text of, if that is an identifier. -/
theorem outcome_eq_scope {v : Except ExpressionError Json} {scope : String} :
    outcome v = .scope scope ↔
      v = .ok (.string scope) ∧ ∃ id, ResourceId.parse scope = .ok id := by
  rcases v with e | v
  · simp [outcome]
  · -- Of all values only a text can be an identifier.
    cases v with
    | string id =>
      cases hparse : ResourceId.parse id with
      | ok r =>
        simp only [outcome, scopeOf, hparse, ScopeOutcome.scope.injEq, Except.ok.injEq,
          Json.string.injEq]
        constructor
        · rintro rfl
          exact ⟨rfl, r, hparse⟩
        · exact fun h => h.1
      | error e =>
        simp only [outcome, scopeOf, hparse, reduceCtorEq, Except.ok.injEq, Json.string.injEq,
          false_iff, not_and, not_exists]
        rintro rfl r hr
        simp [hparse] at hr
    | _ => simp [outcome, scopeOf]

/-- The errors that a site reports for a supplied value. -/
theorem errors_outcome (site : GrantSite) (roles : List String) (parameter : String)
    (v : Except ExpressionError Json) :
    (site.findings roles parameter (outcome v)).errors =
      ((fault? v).map fun reason => (⟨site.group.id, site.assignment, parameter, site.reference,
        roles, reason⟩ : DerivationError)).toList := by
  rcases v with e | v
  · rfl
  · cases v with
    | string id =>
      cases hparse : ResourceId.parse id <;> simp only [outcome, scopeOf, fault?, hparse] <;> rfl
    | _ => rfl

/-- The grants of a site for what a parameter gives. -/
theorem mem_grants_outcome {site : GrantSite} {roles : List String} {parameter : String}
    {o : ScopeOutcome} {x : RoleGrant} :
    x ∈ (site.findings roles parameter o).grants ↔
      x ∈ site.grantsAt roles x.scope ∧ o = .scope x.scope := by
  cases o with
  | scope id =>
    simp only [GrantSite.findings, GrantSite.grantsAt, List.mem_map, ScopeOutcome.scope.injEq]
    constructor
    · -- A grant of a site has the scope that it is asked for.
      rintro ⟨role, hrole, rfl⟩
      exact ⟨⟨role, hrole, rfl⟩, rfl⟩
    · rintro ⟨hx, rfl⟩
      exact hx
  | absent => simp [GrantSite.findings, Findings.none]
  | unusable reason => simp [GrantSite.findings]

/-- The grants for a demand are those of its roles, at the group and at the scopes that its
parameters give. -/
theorem mem_grants_findings {g : Group} {assignment : String} {d : Demand} {x : RoleGrant} :
    x ∈ (d.findings g assignment).grants ↔
      x.assignment = assignment ∧ x.group = g.id ∧
        x.roleDefinitionId ∈ d.definition.roleDefinitionIds ∧
        (x.scope = g.resourceId ∨ d.GivesScope x.scope) := by
  have hsite : ∀ scope, x ∈ GrantSite.grantsAt ⟨g, assignment, d.reference⟩
      d.definition.roleDefinitionIds scope ↔ x.assignment = assignment ∧ x.group = g.id ∧
        x.roleDefinitionId ∈ d.definition.roleDefinitionIds ∧ x.scope = scope := by
    intro scope
    obtain ⟨a, role, s, group⟩ := x
    simp only [GrantSite.grantsAt, List.mem_map, RoleGrant.mk.injEq]
    constructor
    · rintro ⟨role, hrole, rfl, rfl, rfl, rfl⟩
      exact ⟨rfl, rfl, hrole, rfl⟩
    · rintro ⟨rfl, rfl, hrole, rfl⟩
      exact ⟨role, hrole, rfl, rfl, rfl, rfl⟩
  -- A parameter gives a scope when its outcome is that scope.
  have hscope : (∃ e ∈ d.definition.assignPermissionsParameters,
      (((d.supplied e.1).map outcome).getD .absent) = .scope x.scope) ↔ d.GivesScope x.scope := by
    refine exists_congr fun e => and_congr_right fun _ => ?_
    cases d.supplied e.1 with
    | none => simp
    | some v => simp [outcome_eq_scope]
  unfold findings
  split
  · rename_i hroles
    rw [List.isEmpty_iff] at hroles
    simp [hroles, Findings.none]
  · simp only [GrantSite.found, Findings.append, Findings.grants_join, List.mem_append,
      List.flatMap_map, List.mem_flatMap, mem_grants_outcome, hsite, ← hscope]
    constructor
    · rintro (⟨ha, hg, hrole, hs⟩ | ⟨e, he, ⟨ha, hg, hrole, -⟩, hs⟩)
      · exact ⟨ha, hg, hrole, Or.inl hs⟩
      · exact ⟨ha, hg, hrole, Or.inr ⟨e, he, hs⟩⟩
    · rintro ⟨ha, hg, hrole, hs | ⟨e, he, hs⟩⟩
      · exact Or.inl ⟨ha, hg, hrole, hs⟩
      · exact Or.inr ⟨e, he, ⟨ha, hg, hrole, trivial⟩, hs⟩

/-- The errors for a demand are its parameters with a value that is no scope. -/
theorem errors_findings (g : Group) (assignment : String) (d : Demand) :
    (d.findings g assignment).errors = d.errors g.id assignment := by
  unfold findings errors
  split
  · rfl
  · simp only [GrantSite.found, Findings.append, Findings.errors_join, List.flatMap_map,
      List.nil_append]
    rw [List.filterMap_eq_flatMap_toList]
    refine List.flatMap_congr fun e _ => ?_
    cases d.supplied e.1 with
    | none => rfl
    | some v => exact errors_outcome _ _ _ v

end Demand

/-- The findings for a group whose assignments have the demands `ds`. -/
def Group.findings (g : Group) (ds : String → List Demand) : Findings :=
  .join (g.policyAssignments.entries.map fun e => .join ((ds e.1).map (Demand.findings g e.1)))

/-! ### The queries of a derivation -/

namespace Query

/-- A parameter gives what is supplied, or nothing where it is optional. -/
theorem outcome_answers (site : GrantSite) (scope : String → Option ScopeOutcome)
    (e : String × ParameterDefinition) :
    Ensures I (site.outcome scope e : Query σ _) (fun o => o = (scope e.1).getD .absent)
      fun _ => True := by
  unfold GrantSite.outcome GrantSite.unsupplied
  cases scope e.1 with
  | some o => exact .pure rfl
  | none =>
    dsimp only
    split
    · exact .pure rfl
    · exact .throw trivial

/-- An answer for a definition says what each of its parameters gives. A required parameter
without a value is no answer. -/
theorem forDefinition_answers (site : GrantSite) (p : PolicyDefinition)
    (scope : String → Option ScopeOutcome) :
    Ensures I (site.forDefinition p scope : Query σ _) (fun f => f = site.found p scope)
      fun _ => True := by
  unfold GrantSite.forDefinition
  refine (Ensures.mapM_eq (g := fun e =>
    site.findings p.roleDefinitionIds e.1 ((scope e.1).getD .absent)) fun e _ => ?_).bind ?_
  · refine (outcome_answers site scope e).bind ?_
    rintro o rfl
    exact .pure rfl
  · rintro parts rfl
    exact .pure rfl

/-- An answer for a direct reference is the findings for its demand. -/
theorem deriveDirect_answers (hI : src.Keeps I) (g : Group) (name : String)
    (a : PolicyAssignment) (definitionName : String) :
    Ensures I (deriveDirect src g name a definitionName)
      (fun f => ∃ p,
        (src.policyDefinition definitionName a.properties.definitionVersion).Answers p ∧
        f = (Demand.direct a p).findings g name) fun _ => True := by
  unfold deriveDirect
  refine (require_ensures (hI.policyDefinition _ _) _).bind fun p hp => ?_
  split
  · exact .throw trivial
  · -- A definition without roles fails, so here it has some.
    rename_i hroles
    refine (forDefinition_answers _ p _).mono ?_ fun _ he => he
    rintro f rfl
    exact ⟨p, hp, (Demand.findings_eq_found (d := .direct a p) hroles
      (Demand.map_outcome_direct a p)).symm⟩

/-- An answer for a member is the findings for its demand, or none where there can be none. -/
theorem deriveMember_answers (hI : src.Keeps I) (g : Group) (name : String)
    (a : PolicyAssignment) (setName : String) (set : PolicySetDefinition) (m : SetMember) :
    Ensures I (deriveMember src g name setName (memberEnvironment set a) m)
      (fun part => ∃ d, IsMemberDemand src a set m d ∧ part.getD .none = d.findings g name)
      fun _ => True := by
  unfold deriveMember
  refine (memberName_ensures g.id setName m).bind fun definitionName hname => ?_
  refine (require_ensures (hI.policyDefinition _ _) _).bind fun p hp => ?_
  split
  · -- Without roles the demand is there, but nothing is found for it.
    rename_i hroles
    exact .pure ⟨.member a set m p, ⟨definitionName, p, hname, hp, rfl⟩, (if_pos hroles).symm⟩
  · rename_i hroles
    refine (forDefinition_answers _ p _).bind ?_
    rintro f rfl
    exact .pure ⟨.member a set m p, ⟨definitionName, p, hname, hp, rfl⟩,
      (Demand.findings_eq_found (d := .member a set m p) hroles
        (Demand.map_outcome_member a set m p)).symm⟩

/-- An answer for a set is the findings for the demands of all members. -/
theorem deriveSet_answers (hI : src.Keeps I) (g : Group) (name : String) (a : PolicyAssignment)
    (setName : String) :
    Ensures I (deriveSet src g name a setName)
      (fun f => ∃ set ds,
        (src.policySetDefinition setName a.properties.definitionVersion).Answers set ∧
        List.Forall₂ (IsMemberDemand src a set) set.properties.members ds ∧
        f = .join (ds.map (Demand.findings g name))) fun _ => True := by
  unfold deriveSet
  refine (require_ensures (hI.policySetDefinition _ _) _).bind fun set hset => ?_
  refine (Ensures.mapM fun m _ => deriveMember_answers hI g name a setName set m).bind
    fun parts hparts => ?_
  split
  · exact .throw trivial
  · rename_i hroles
    clear hroles
    refine .pure ?_
    -- Each part comes from one demand; together they are the demands of the members.
    obtain ⟨ds, hds, heq⟩ : ∃ ds,
        List.Forall₂ (IsMemberDemand src a set) set.properties.members ds ∧
        (parts.map fun part => part.getD .none) = ds.map (Demand.findings g name) := by
      generalize set.properties.members = members at hparts ⊢
      induction hparts with
      | nil => exact ⟨[], .nil, rfl⟩
      | cons hpart _ ih =>
        obtain ⟨d, hd, hfound⟩ := hpart
        obtain ⟨ds, hds, heq⟩ := ih
        exact ⟨d :: ds, .cons hd hds, by rw [List.map_cons, List.map_cons, heq, hfound]⟩
    exact ⟨set, ds, hset, hds, by rw [Findings.join_filterMap, heq]⟩

/-- The findings for an assignment are those of its demands. -/
theorem deriveAssignment_answers (hI : src.Keeps I) (g : Group) (name : String)
    (a : PolicyAssignment) :
    Ensures I (deriveAssignment src g name a)
      (fun f => ∃ ds, DemandsOf src a ds ∧ f = .join (ds.map (Demand.findings g name)))
      fun _ => True := by
  unfold deriveAssignment
  split
  · rename_i hidentity
    exact .pure ⟨[], .noIdentity (by simpa using hidentity), rfl⟩
  · rename_i hidentity
    have hidentity : a.usesManagedIdentity = true := by simpa using hidentity
    refine (target_ensures g.id name a).bind fun t ht => ?_
    -- A definition is one demand, and a set definition has one for each member.
    cases t with
    | definition definitionName =>
      refine (deriveDirect_answers hI g name a definitionName).mono ?_ fun _ he => he
      rintro f ⟨p, hp, rfl⟩
      refine ⟨[.direct a p], .direct hidentity ht hp, ?_⟩
      simp [Findings.join, Findings.append, Findings.none]
    | setDefinition setName =>
      refine (deriveSet_answers hI g name a setName).mono ?_ fun _ he => he
      rintro f ⟨set, ds, hset, hds, rfl⟩
      exact ⟨ds, .set hidentity ht hset hds, rfl⟩

/-- The findings for a group are those of the demands of its assignments. -/
theorem deriveGroup_answers (hI : src.Keeps I) (g : Group) :
    Ensures I (deriveGroup src g)
      (fun f => ∃ ds : String → List Demand,
        (∀ name a, g.policyAssignments.get? name = some a → DemandsOf src a (ds name)) ∧
        f = g.findings ds) fun _ => True := by
  unfold deriveGroup
  refine (checkStopped_ensures fun _ _ _ => trivial).bind_any fun _ => ?_
  refine (Ensures.mapM_entries (P := fun _ a ds => DemandsOf src a ds)
    (g := fun e ds => .join (ds.map (Demand.findings g e.1))) fun e _ =>
      deriveAssignment_answers hI g e.1 e.2).bind ?_
  rintro parts ⟨ds, hds, rfl⟩
  exact .pure ⟨ds, hds, rfl⟩

/-- An answer of a derivation is the findings for each group. -/
theorem deriveAll_answers (hI : src.Keeps I) (r : Registry) :
    Ensures I (deriveAll src r)
      (fun found => ∃ ds : String → String → List Demand,
        (∀ id g, r.get? id = some g → ∀ name a, g.policyAssignments.get? name = some a →
          DemandsOf src a (ds id name)) ∧
        found = r.entries.map fun e => (e.1, e.2.findings (ds e.1))) fun _ => True := by
  unfold deriveAll
  -- What is chosen for a group is itself a choice for each of its assignments.
  refine Ensures.mapM_entries
    (P := fun _ (g : Group) (ds : String → List Demand) => ∀ name a,
      g.policyAssignments.get? name = some a → DemandsOf src a (ds name))
    (g := fun (e : String × Group) ds => (e.1, e.2.findings ds)) fun e _ => ?_
  refine (deriveGroup_answers hI e.2).bind ?_
  rintro f ⟨ds, hds, rfl⟩
  exact .pure ⟨ds, hds, rfl⟩

end Query

end Governance
