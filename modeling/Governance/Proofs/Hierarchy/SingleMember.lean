import Governance.Proofs.Expression.ParameterCall
import Governance.Proofs.Hierarchy.Demands

/-!
# `Governance.Proofs.Hierarchy.SingleMember`: a definition by itself and as the only member of a set

An assignment may refer to a definition directly, or to a set definition with this one member. The
two ways lead to the values of parameters by different paths: the direct one takes what the
assignment supplies, the other evaluates the texts of the member over the defaults of the set and
what the assignment supplies.

* `SetMember.PassesOn`: the member passes each parameter that asks for permissions on as it is.
* `derive_only_member`: the two ways then find the same, and differ in the label of errors only
  (`Findings.labelled`). A definition that asks for no roles fails both.
-/

set_option autoImplicit false

namespace Governance

variable {σ : Type} {src : AssetSource σ} {c : Catalog} {I : σ → Prop}

/-! ### Labels of errors -/

/-- The error with the label of a member of a set. -/
def DerivationError.labelled (label : String) (e : DerivationError) : DerivationError :=
  { e with reference := some label }

/-- The findings with the label of a member of a set on each error. -/
def Findings.labelled (label : String) (f : Findings) : Findings :=
  ⟨f.grants, f.errors.map (DerivationError.labelled label)⟩

/-- A label is put on both parts of findings. -/
theorem Findings.labelled_append (label : String) (f f' : Findings) :
    (append f f').labelled label = append (f.labelled label) (f'.labelled label) := by
  simp [labelled, append]

/-- A label is put on all parts of joined findings. -/
theorem Findings.labelled_join (label : String) (parts : List Findings) :
    (join parts).labelled label = join (parts.map (labelled label)) := by
  induction parts with
  | nil => rfl
  | cons part rest ih =>
    change (append part (join rest)).labelled label = _
    rw [labelled_append, ih]
    rfl

namespace GrantSite

/-- The member that a site belongs to shows in the errors only. -/
theorem found_labelled (g : Group) (name label : String) (p : PolicyDefinition)
    (scope : String → Option ScopeOutcome) :
    found ⟨g, name, some label⟩ p scope = (found ⟨g, name, none⟩ p scope).labelled label := by
  have hparameter : ∀ (parameter : String) (o : ScopeOutcome),
      findings ⟨g, name, some label⟩ p.roleDefinitionIds parameter o =
        (findings ⟨g, name, none⟩ p.roleDefinitionIds parameter o).labelled label := by
    intro parameter o
    cases o <;> rfl
  simp only [found, Findings.labelled_append, Findings.labelled_join, List.map_map,
    Function.comp_def, hparameter]
  rfl

/-- What is found does not depend on what other parameters would give. -/
theorem found_congr {site : GrantSite} {p : PolicyDefinition}
    {scope scope' : String → Option ScopeOutcome}
    (h : ∀ e ∈ p.assignPermissionsParameters, scope e.1 = scope' e.1) :
    site.found p scope = site.found p scope' := by
  have hparts : (p.assignPermissionsParameters.map fun e =>
      site.findings p.roleDefinitionIds e.1 ((scope e.1).getD .absent)) =
      p.assignPermissionsParameters.map fun e =>
        site.findings p.roleDefinitionIds e.1 ((scope' e.1).getD .absent) :=
    List.map_congr_left fun e he => by rw [h e he]
  rw [found, hparts, found]

/-- Without a label there is none on an error. -/
theorem reference_of_mem_found {g : Group} {name : String} {p : PolicyDefinition}
    {scope : String → Option ScopeOutcome} {e : DerivationError}
    (h : e ∈ (found ⟨g, name, none⟩ p scope).errors) : e.reference = none := by
  simp only [found, Findings.append, Findings.errors_join, List.nil_append, List.mem_flatMap,
    List.mem_map] at h
  obtain ⟨_, ⟨parameter, -, rfl⟩, he⟩ := h
  -- A parameter gives an error only if its value is of no use, with the reference of the site.
  cases ho : (scope parameter.1).getD .absent with
  | unusable reason =>
    rw [ho] at he
    obtain rfl := List.mem_singleton.mp he
    rfl
  | _ =>
    rw [ho] at he
    cases he

end GrantSite

/-! ### Both ways -/

namespace Query

/-- A definition whose parameters all get something is never a failure. -/
theorem forDefinition_supplied {site : GrantSite} {p : PolicyDefinition}
    {scope : String → Option ScopeOutcome}
    (h : ∀ e ∈ p.assignPermissionsParameters, (scope e.1).isSome = true) :
    Ensures I (site.forDefinition p scope : Query σ _) (fun f => f = site.found p scope)
      fun _ => False := by
  unfold GrantSite.forDefinition
  refine (Ensures.mapM_eq (g := fun e =>
    site.findings p.roleDefinitionIds e.1 ((scope e.1).getD .absent)) fun e he => ?_).bind ?_
  · -- A parameter with a supplied value is not looked for elsewhere, so nothing fails.
    obtain ⟨o, ho⟩ := Option.isSome_iff_exists.mp (h e he)
    have houtcome : (site.outcome scope e : Query σ _) = pure o := by
      rw [GrantSite.outcome, ho]
    have hpure : Ensures I (pure o : Query σ _) (fun o' => o' = o) fun _ => False := .pure rfl
    rw [houtcome, ho]
    refine hpure.bind ?_
    rintro _ rfl
    exact .pure rfl
  · rintro parts rfl
    exact .pure rfl

/-- The direct way: the values of the assignment are the scopes. -/
theorem deriveDirect_supplied (hsrc : src.AnswersAs c) (g : Group) (name : String)
    {a : PolicyAssignment} {d : String} {p : PolicyDefinition}
    (hp : c.policyDefinition? d a.properties.definitionVersion = some p)
    (hvalues : ∀ e ∈ p.assignPermissionsParameters, (directScope a e.1).isSome = true) :
    Ensures (fun _ => True) (deriveDirect src g name a d)
      (fun f => p.roleDefinitionIds ≠ [] ∧ f = GrantSite.found ⟨g, name, none⟩ p (directScope a))
      fun e => p.roleDefinitionIds = [] ∧ e = .noRoleDefinitions g.id name d := by
  have hfound : ∀ s, (src.policyDefinition d a.properties.definitionVersion s).1 = .ok (some p) :=
    fun s => (hsrc.policyDefinition d _ s).trans (congrArg _ hp)
  unfold deriveDirect
  refine (require_found hfound (src.keeps_true.policyDefinition _ _) _).bind ?_
  rintro p' rfl
  -- It fails if there is no role, and in no other way.
  split
  · next hroles => exact .throw ⟨List.isEmpty_iff.mp hroles, rfl⟩
  · next hroles =>
    refine (forDefinition_supplied hvalues).mono (fun f hf => ⟨?_, hf⟩) fun _ h => h.elim
    simpa using hroles

/-- What a member supplies, evaluated for a set. -/
def memberScope (m : SetMember) (env : Expression.Environment) (parameter : String) :
    Option ScopeOutcome :=
  (m.parameters.get? parameter).map (scopeOfSupplied env)

/-- A member whose parameters all get a value gives the findings of its definition, if that has
roles. -/
theorem deriveMember_supplied (hsrc : src.AnswersAs c) (g : Group) (name set : String)
    {env : Expression.Environment} {m : SetMember} {d : String} {p : PolicyDefinition}
    (hd : m.definitionName = .ok d) (hp : c.policyDefinition? d m.definitionVersion = some p)
    (hvalues : ∀ e ∈ p.assignPermissionsParameters, (memberScope m env e.1).isSome = true) :
    Ensures (fun _ => True) (deriveMember src g name set env m)
      (fun part => part = if p.roleDefinitionIds = [] then none
        else some (GrantSite.found ⟨g, name, some m.label⟩ p (memberScope m env)))
      fun _ => False := by
  have hname : (memberName g.id set m : Query σ _) = pure d := by rw [memberName, hd]
  have hfound : ∀ s, (src.policyDefinition d m.definitionVersion s).1 = .ok (some p) :=
    fun s => (hsrc.policyDefinition d _ s).trans (congrArg _ hp)
  unfold deriveMember
  rw [hname, pure_bind]
  refine (require_found hfound (src.keeps_true.policyDefinition _ _) _).bind ?_
  rintro p' rfl
  -- A definition without roles is passed over.
  split
  · next hroles => exact .pure (if_pos (List.isEmpty_iff.mp hroles)).symm
  · next hroles =>
    refine (forDefinition_supplied hvalues).bind ?_
    rintro _ rfl
    exact .pure (if_neg (by simpa using hroles)).symm

/-- The way through a set with one member: what the member supplies is evaluated. -/
theorem deriveSet_supplied (hsrc : src.AnswersAs c) (g : Group) (name : String)
    {a : PolicyAssignment} {setName d : String} {set : PolicySetDefinition} {m : SetMember}
    {p : PolicyDefinition}
    (hset : c.policySetDefinition? setName a.properties.definitionVersion = some set)
    (hmembers : set.properties.members = [m]) (hd : m.definitionName = .ok d)
    (hp : c.policyDefinition? d m.definitionVersion = some p)
    (hvalues : ∀ e ∈ p.assignPermissionsParameters,
      (memberScope m (memberEnvironment set a) e.1).isSome = true) :
    Ensures (fun _ => True) (deriveSet src g name a setName)
      (fun f => p.roleDefinitionIds ≠ [] ∧
        f = GrantSite.found ⟨g, name, some m.label⟩ p (memberScope m (memberEnvironment set a)))
      fun e => p.roleDefinitionIds = [] ∧ e = .noRoleDefinitions g.id name setName := by
  have hfound : ∀ s, (src.policySetDefinition setName a.properties.definitionVersion s).1 =
      .ok (some set) := fun s => (hsrc.policySetDefinition setName _ s).trans (congrArg _ hset)
  unfold deriveSet
  refine (require_found hfound (src.keeps_true.policySetDefinition _ _) _).bind ?_
  rintro set' rfl
  rw [hmembers]
  refine ((Ensures.mapM_eq (g := fun _ => if p.roleDefinitionIds = [] then none else some
    (GrantSite.found ⟨g, name, some m.label⟩ p (memberScope m (memberEnvironment set' a))))
    fun m' hm' => ?_).mono (fun _ h => h) fun _ (h : False) => h.elim).bind ?_
  · obtain rfl := List.mem_singleton.mp hm'
    exact deriveMember_supplied hsrc g name setName hd hp hvalues
  · rintro _ rfl
    -- The only member is passed over if it has no role, and then the set has none.
    by_cases hroles : p.roleDefinitionIds = []
    · simp only [hroles]
      exact .throw ⟨trivial, rfl⟩
    · simp only [hroles]
      refine .pure ⟨hroles, ?_⟩
      simp [Findings.join, Findings.append, Findings.none]

end Query

/-- A member that refers to a definition in no particular version and passes each parameter that
asks for permissions on to it, as an expression with the same name. -/
structure SetMember.PassesOn (m : SetMember) (d : String) (p : PolicyDefinition) : Prop where
  definitionName : m.definitionName = .ok d
  unpinned : m.definitionVersion = none
  parameters : ∀ e ∈ p.assignPermissionsParameters,
    m.parameters.get? e.1 = some (.string (Expression.parameterCall e.1))

namespace Query

/-- A value that the assignment supplies is a scope, or no scope, on its own account. -/
theorem directScope_supplied {a : PolicyAssignment} {parameter : String} {v : Json}
    (h : a.parameterValue? parameter = some v) (hnull : v ≠ .null) (hempty : v ≠ .string "") :
    directScope a parameter = some (scopeOf v) := by
  have hcounts : countsAsMissing v = false := by
    cases v with
    | null => exact absurd rfl hnull
    | string text =>
      have htext : text ≠ "" := fun htext => hempty (congrArg Json.string htext)
      simpa [countsAsMissing] using htext
    | _ => rfl
  rw [directScope, h]
  simp [hcounts]

/-- A value that the assignment supplies is what a member passes on, whatever default the set has
for a parameter of that name. -/
theorem memberScope_supplied {m : SetMember} {a : PolicyAssignment} {set : PolicySetDefinition}
    {parameter : String} {v : Json}
    (hm : m.parameters.get? parameter = some (.string (Expression.parameterCall parameter)))
    (h : a.parameterValue? parameter = some v) :
    memberScope m (memberEnvironment set a) parameter = some (scopeOf v) := by
  have hfound : (memberEnvironment set a).get? parameter = some v := by
    have hvalue : a.properties.parameters.get? parameter = some v := h
    rw [memberEnvironment, OrderedMap.get?_override, hvalue, Option.some_or]
  rw [memberScope, hm, Option.map_some, scopeOfSupplied, Expression.evaluate_parameterCall hfound]

/-- What an assignment with an identity refers to says how it is derived. -/
theorem deriveAssignment_definition {a : PolicyAssignment} (g : Group) (name : String) {d : String}
    (hidentity : a.usesManagedIdentity = true)
    (htarget : a.referencedDefinition = .ok (.definition d)) :
    deriveAssignment src g name a = deriveDirect src g name a d := by
  have hpure : (target g.id name a : Query σ _) = pure (.definition d) := by rw [target, htarget]
  rw [deriveAssignment, hidentity, hpure, pure_bind]
  rfl

/-- An assignment of a set definition with an identity is derived as the set. -/
theorem deriveAssignment_setDefinition {a : PolicyAssignment} (g : Group) (name : String)
    {set : String} (hidentity : a.usesManagedIdentity = true)
    (htarget : a.referencedDefinition = .ok (.setDefinition set)) :
    deriveAssignment src g name a = deriveSet src g name a set := by
  have hpure : (target g.id name a : Query σ _) = pure (.setDefinition set) := by
    rw [target, htarget]
  rw [deriveAssignment, hidentity, hpure, pure_bind]
  rfl

/-- An assignment that supplies every parameter that asks for permissions is derived alike with a
direct reference to a definition and with a reference to a set whose only member passes these
parameters on: the grants are the same, and so are the errors but for the label of the member, or
both fail because the definition asks for no roles. -/
theorem derive_only_member (hsrc : src.AnswersAs c) (g : Group) (name : String)
    {a : PolicyAssignment} (hidentity : a.usesManagedIdentity = true)
    (hunpinned : a.properties.definitionVersion = none)
    {definitionId d : String} {p : PolicyDefinition}
    (hdefinition : Reference.target definitionId = .ok (.definition d))
    (hp : c.policyDefinition? d none = some p)
    {setId setName : String} {set : PolicySetDefinition} {m : SetMember}
    (hreference : Reference.target setId = .ok (.setDefinition setName))
    (hset : c.policySetDefinition? setName none = some set)
    (hmembers : set.properties.members = [m]) (hm : m.PassesOn d p)
    (hvalues : ∀ e ∈ p.assignPermissionsParameters,
      ∃ v, a.parameterValue? e.1 = some v ∧ v ≠ .null ∧ v ≠ .string "")
    (s s' : σ) :
    let direct := ((deriveAssignment src g name (Deployment.pointed a definitionId)).run s).1
    let throughSet := ((deriveAssignment src g name (Deployment.pointed a setId)).run s').1
    (p.roleDefinitionIds ≠ [] ∧ ∃ f, direct = .ok f ∧ throughSet = .ok (f.labelled m.label) ∧
      ∀ e ∈ f.errors, e.reference = none) ∨
    (p.roleDefinitionIds = [] ∧ direct = .error (.noRoleDefinitions g.id name d) ∧
      throughSet = .error (.noRoleDefinitions g.id name setName)) := by
  have hdirect : ∀ e ∈ p.assignPermissionsParameters, (directScope a e.1).isSome = true ∧
      memberScope m (memberEnvironment set a) e.1 = directScope a e.1 := by
    intro e he
    obtain ⟨v, hv, hnull, hempty⟩ := hvalues e he
    rw [directScope_supplied hv hnull hempty, memberScope_supplied (hm.parameters e he) hv]
    exact ⟨rfl, rfl⟩
  have hmember : ∀ e ∈ p.assignPermissionsParameters,
      (memberScope m (memberEnvironment set a) e.1).isSome = true := by
    intro e he
    obtain ⟨hsome, hsame⟩ := hdirect e he
    rw [hsame, hsome]
  have hfirst := (deriveDirect_supplied (a := Deployment.pointed a definitionId) hsrc g name
    (hunpinned ▸ hp) (fun e he => (hdirect e he).1) s trivial).1
  have hsecond := (deriveSet_supplied (a := Deployment.pointed a setId) hsrc g name
    (hunpinned ▸ hset) hmembers hm.definitionName (hm.unpinned ▸ hp) hmember s' trivial).1
  dsimp only
  rw [deriveAssignment_definition (a := Deployment.pointed a definitionId) g name hidentity
      hdefinition,
    deriveAssignment_setDefinition (a := Deployment.pointed a setId) g name hidentity hreference]
  generalize ((deriveDirect src g name (Deployment.pointed a definitionId) d).run s).1 = direct
    at hfirst ⊢
  generalize ((deriveSet src g name (Deployment.pointed a setId) setName).run s').1 = throughSet
    at hsecond ⊢
  -- Whether there are roles decides both ends alike.
  rcases direct with e | f <;> rcases throughSet with e' | f'
  · obtain ⟨hroles, rfl⟩ := hfirst
    obtain ⟨-, rfl⟩ := hsecond
    exact .inr ⟨hroles, rfl, rfl⟩
  · exact absurd hfirst.1 hsecond.1
  · exact absurd hsecond.1 hfirst.1
  · obtain ⟨hroles, rfl⟩ := hfirst
    obtain ⟨-, rfl⟩ := hsecond
    refine .inl ⟨hroles, _, rfl, ?_, fun e he => GrantSite.reference_of_mem_found he⟩
    rw [← GrantSite.found_labelled]
    exact congrArg Except.ok (GrantSite.found_congr fun e he => (hdirect e he).2)

end Query

namespace Sample

/-- `deploy` with a quote in the name of its parameter. -/
def deployQuoted : PolicyDefinition :=
  { deploy with
    properties := { deploy.properties with
      parameters := .ofList [("log's", ⟨"String", none, none, some ⟨none, none, true, {}⟩⟩)] } }

/-- A member that passes the parameter of `deployQuoted` on. -/
def quotedMember : SetMember :=
  { deployMember "only" "" with
    parameters := .ofList [("log's", .string "[parameters('log''s')]")] }

/-- A set with this one member. -/
def wrapper : PolicySetDefinition where
  name := "wrapper"
  id := none
  resourceType := ResourceType.policySetDefinition
  properties := ⟨none, none, none, none, none, {}, [quotedMember], none⟩

/-- The catalog of the two definitions. -/
def wrapperCatalog : Catalog :=
  { Catalog.empty with
    policyDefinitions := .ofList [("deploy", Versions.empty.insert none deployQuoted)]
    policySetDefinitions := .ofList [("wrapper", Versions.empty.insert none wrapper)] }

/-- An assignment with an identity and a value for the parameter. -/
def quotedAssignment (definitionId : String) : PolicyAssignment :=
  { suiteAssignment with
    properties := { suiteAssignment.properties with
      policyDefinitionId := definitionId
      parameters := .ofList [("log's", .string "/subscriptions/logs")] } }

/-- A group without assets. -/
def bareGroup : Group :=
  Hierarchy.newGroup ⟨"root", "Root", .external "tenant", "westeurope", false, []⟩ 0
    ⟨{}, {}, {}, {}⟩

end Sample

namespace Query

/-- The wrapper of the definition `deploy` passes on its parameter, which has a quote in its name.
-/
theorem derive_only_member_wrapper : ∃ f,
    ((deriveAssignment Sample.wrapperCatalog.source Sample.bareGroup "assign"
      (Sample.quotedAssignment
        "/providers/Microsoft.Authorization/policyDefinitions/deploy")).run false).1 = .ok f ∧
    ((deriveAssignment Sample.wrapperCatalog.source Sample.bareGroup "assign"
      (Sample.quotedAssignment
        "/providers/Microsoft.Authorization/policySetDefinitions/wrapper")).run false).1 =
      .ok (f.labelled "only") := by
  have hparameters : Sample.deployQuoted.assignPermissionsParameters =
      [("log's", ⟨"String", none, none, some ⟨none, none, true, {}⟩⟩)] := rfl
  have hpasses : Sample.quotedMember.PassesOn "deploy" Sample.deployQuoted := by
    refine ⟨ok_of_toOption (by decide +kernel), rfl, fun e he => ?_⟩
    rw [hparameters] at he
    obtain rfl := List.mem_singleton.mp he
    rfl
  have hvalues : ∀ e ∈ Sample.deployQuoted.assignPermissionsParameters,
      ∃ v, (Sample.quotedAssignment "").parameterValue? e.1 = some v ∧ v ≠ .null ∧
        v ≠ .string "" := by
    intro e he
    rw [hparameters] at he
    obtain rfl := List.mem_singleton.mp he
    exact ⟨.string "/subscriptions/logs", rfl, by simp, by simp⟩
  have hends := derive_only_member Sample.wrapperCatalog.source_answersAs Sample.bareGroup "assign"
    (a := Sample.quotedAssignment "") (m := Sample.quotedMember) (by decide) rfl
    (ok_of_toOption (by decide +kernel) : Reference.target
      "/providers/Microsoft.Authorization/policyDefinitions/deploy" = .ok (.definition "deploy"))
    rfl
    (ok_of_toOption (by decide +kernel) : Reference.target
      "/providers/Microsoft.Authorization/policySetDefinitions/wrapper" =
        .ok (.setDefinition "wrapper"))
    rfl rfl hpasses hvalues false false
  -- The definition has a role, so both derivations succeed.
  rcases hends with ⟨-, f, hdirect, hset, -⟩ | ⟨hroles, -⟩
  · exact ⟨f, hdirect, hset⟩
  · have hrole : Sample.deployQuoted.roleDefinitionIds = ["contributor"] := rfl
    simp [hrole] at hroles

end Query

end Governance
