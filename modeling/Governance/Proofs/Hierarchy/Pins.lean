import Governance.Proofs.Hierarchy.Naming
import Governance.Proofs.Hierarchy.Pointing

/-!
# `Governance.Proofs.Hierarchy.Pins`: the versions that are checked and those that are copied

The check of an assignment follows the versions that the assignment and the members of its set
pin. The copies are made without versions, of the highest one. So what was checked need not be
what is deployed: `History.undeclared_of_pin` is a run where an assignment, its set definition
and the definition are all deployed, and the set definition passes a parameter that the copy
of the definition does not declare.

`History.declared_of_pins` is the case where they are the same. Wherever an assignment copy
points at a set copy and a member of that points at a definition copy (`DeployedUse`), and the
two pins are answered as no pin is, each parameter of the member is declared by that copy.

The copies of definitions that it speaks of are all that are registered, also at groups whose
deployment failed (`definition_after`).
-/

set_option autoImplicit false

namespace Governance

open ResourceId

variable {σ : Type} {src : AssetSource σ}

/-! ### Copies of definitions -/

/-- The policy definitions of a group say what the source answers without a version. -/
def Group.CopiesDefinitions (src : AssetSource σ) (g : Group) : Prop :=
  ∀ name q, g.policyDefinitions.get? name = some q →
    ∃ p, (src.policyDefinition name none).Answers p ∧ q.properties = p.properties

/-- Deploying gives definitions an identifier, and leaves what they say. -/
theorem Group.CopiesDefinitions.deploy {g : Group} (ctx : DeploymentContext)
    (h : g.CopiesDefinitions src) : (g.deploy ctx).1.CopiesDefinitions src := by
  have hdefinitions : (g.deploy ctx).1.policyDefinitions =
      g.policyDefinitions.map (Deployment.definition g.id) := by
    unfold Group.deploy
    dsimp only
    split <;> rfl
  intro name q hq
  rw [hdefinitions, OrderedMap.get?_map] at hq
  obtain ⟨q₀, hq₀, rfl⟩ := Option.map_eq_some_iff.mp hq
  exact h name q₀ hq₀

/-- After every run each copy of a policy definition says what the source answers without a
version. -/
theorem History.definition_after (uniqueRoles : Bool) (calls : List (σ × Call)) {id : String}
    {g : Group} (hg : (after src uniqueRoles calls).hierarchy.groups.get? id = some g) :
    g.CopiesDefinitions src := by
  have hall : ∀ id g, (after src uniqueRoles calls).hierarchy.groups.get? id = some g →
      g.CopiesDefinitions src := by
    -- Definitions are copied when their group is added, and no call changes them.
    refine invariant (P := fun t => ∀ id g, t.hierarchy.groups.get? id = some g →
      g.CopiesDefinitions src) ?_ ?_ ?_ calls
    · intro id g hg
      have hnone : (OrderedMap.empty : Registry).get? id = some g := hg
      simp at hnone
    · intro t req level c h _ hc id g hg
      refine Hierarchy.forall_settle h (fun _ hg₀ => hg₀) (.deploy _ fun name q hq => ?_) hg
      exact ⟨q, hc.policyDefinition hq, rfl⟩
    · intro t h' h hframe id g' hg'
      obtain ⟨g, hg, hgg⟩ := Hierarchy.exists_of_frame hframe hg'
      have hdefinitions : g.frame.policyDefinitions = g'.frame.policyDefinitions := by rw [hgg]
      intro name q hq
      exact h id g hg name q (hdefinitions ▸ hq)
  exact hall id g hg

/-! ### References between copies -/

/-- A reference is the identifier of a definition at a group. No reference names a text that
is no segment, so the name is one. -/
structure PointsAt (text owner : String) (t : ReferencedDefinition) : Prop where
  isSegment : IsSegment t.name
  eq_idAt : text = t.idAt owner

/-- Copies of a history that point at each other.

- `assignment`: `a` is a copy of a group that was added with success;
- `member`: `a` points at a copy of `set` of such a group, which has the member `m`;
- `definition`: `m` points at the copy `q` of `definition` of a registered group. -/
structure DeployedUse (t : History) (a : PolicyAssignment) (set : String) (m : SetMember)
    (definition : String) (q : PolicyDefinition) : Prop where
  assignment : ∃ id ∈ t.added, ∃ g name, t.hierarchy.groups.get? id = some g ∧
    g.policyAssignments.get? name = some a
  member : ∃ id ∈ t.added, ∃ g p, t.hierarchy.groups.get? id = some g ∧
    g.policySetDefinitions.get? set = some p ∧ m ∈ p.properties.members ∧
    PointsAt a.properties.policyDefinitionId id (.setDefinition set)
  definition : ∃ id g, t.hierarchy.groups.get? id = some g ∧
    g.policyDefinitions.get? definition = some q ∧
    PointsAt m.policyDefinitionId id (.definition definition)

namespace History

variable {uniqueRoles : Bool} {calls : List (σ × Call)} {c : Catalog}

/-- Where copies point at each other after a run over a catalog, and the catalog has under
both pins what it has without them, the definition declares what the member passes. -/
theorem declared_of_pins (hc : src.AnswersAs c) {a : PolicyAssignment} {set : String}
    {m : SetMember} {definition : String} {q : PolicyDefinition}
    (huse : DeployedUse (after src uniqueRoles calls) a set m definition q)
    (hset : c.policySetDefinition? set a.properties.definitionVersion =
      c.policySetDefinition? set none)
    (hdefinition : c.policyDefinition? definition m.definitionVersion =
      c.policyDefinition? definition none) :
    ∀ parameter ∈ m.parameters.keys, (q.parameter? parameter).isSome = true := by
  obtain ⟨⟨id, hid, g, name, hg, ha⟩, ⟨idp, hidp, gp, p, hgp, hp, hm, hpointsSet⟩,
    ⟨idq, gq, hgq, hq, hpointsDefinition⟩⟩ := huse
  -- The reference of the assignment is to this set, and its check was of the set that was copied.
  obtain ⟨a₀, t, -, hfit, ht, htext, hversion⟩ :=
    (isDeployed_after uniqueRoles calls hid).exists_assignment hg ha
  obtain rfl := ReferencedDefinition.eq_of_pointer ht hpointsSet.isSegment
    (htext.symm.trans hpointsSet.eq_idAt)
  obtain ⟨p₀, hp₀, rfl, -⟩ :=
    (isDeployed_after uniqueRoles calls hidp).exists_setDefinition hgp hp
  obtain ⟨t', ht', hmembers⟩ := hfit
  obtain ⟨p₁, hp₁, hmembers⟩ := hmembers set (Except.ok.inj (ht'.symm.trans ht))
  obtain rfl : p₁ = p₀ := by
    have hchecked := hp₁.eq_some (hc.policySetDefinition set _)
    have hcopied := hp₀.eq_some (hc.policySetDefinition set none)
    rw [← hversion, hset, hcopied] at hchecked
    exact (Option.some.inj hchecked).symm
  -- So the member was checked, against the definition that was copied.
  obtain ⟨m₀, hm₀, rfl⟩ := List.mem_map.mp hm
  -- The name that was checked is the name of the copy, since pointing keeps names.
  obtain ⟨d, p₂, hname, hp₂, hdeclared⟩ := hmembers m₀ hm₀
  rw [SetMember.deployed_policyDefinitionId hname] at hpointsDefinition
  have hd := ReferencedDefinition.eq_of_pointer (Reference.target_of_definitionName hname)
    hpointsDefinition.isSegment hpointsDefinition.eq_idAt
  cases hd
  obtain ⟨q₀, hq₀, hproperties⟩ := definition_after uniqueRoles calls hgq _ q hq
  obtain rfl : p₂ = q₀ := by
    have hchecked := hp₂.eq_some (hc.policyDefinition _ _)
    have hcopied := hq₀.eq_some (hc.policyDefinition _ none)
    rw [SetMember.deployed_definitionVersion] at hdefinition
    rw [hdefinition, hcopied] at hchecked
    exact (Option.some.inj hchecked).symm
  intro parameter hparameter
  rw [SetMember.deployed_parameters] at hparameter
  rw [PolicyDefinition.parameter?, hproperties]
  exact hdeclared parameter hparameter

end History

/-! ### A pin that matters -/

namespace Sample

/-- The catalog of `suite`, with a second version of `deploy` that declares no parameters. The
one member of the set definition pins the first version. -/
def pinnedCatalog : Catalog :=
  { suiteCatalog with
    policyDefinitions := .ofList [("deploy",
      (Versions.empty.insert (some "1.0.0") deploy).insert (some "2.0.0")
        { deploy with properties := { deploy.properties with parameters := {} } })]
    policySetDefinitions := .ofList [("suite", Versions.empty.insert none
      { suite with properties := { suite.properties with members :=
        [{ deployMember "pinned" "[parameters('target')]" with
          definitionVersion := some "1.0.0" }] } })] }

/-- What a run has added, and what the copies at `root` say: the reference and the version of
the assignment, those of the first member of the set definition with its parameters, and the
parameters that the definition declares. -/
structure RootCopies where
  added : List String
  set : String
  setVersion : Option String
  definition : String
  definitionVersion : Option String
  passed : List String
  declared : List String
  deriving DecidableEq

/-- The copies at `root`, if all of these are there. -/
def rootCopies? (t : History) : Option RootCopies := do
  let g ← t.hierarchy.groups.get? "root"
  let a ← g.policyAssignments.get? "assign-suite"
  let p ← g.policySetDefinitions.get? "suite"
  let m ← p.properties.members.head?
  let q ← g.policyDefinitions.get? "deploy"
  return {
    added := t.added
    set := a.properties.policyDefinitionId
    setVersion := a.properties.definitionVersion
    definition := m.policyDefinitionId
    definitionVersion := m.definitionVersion
    passed := m.parameters.keys
    declared := q.properties.parameters.keys }

/-- Copies at `root` that point at each other. -/
theorem exists_deployedUse {t : History} {r : RootCopies} (h : rootCopies? t = some r)
    (hadded : r.added = ["root"]) (hset : r.set = ResourceId.policySetDefinition "root" "suite")
    (hdefinition : r.definition = ResourceId.policyDefinition "root" "deploy") :
    ∃ a m q, DeployedUse t a "suite" m "deploy" q ∧
      a.properties.definitionVersion = r.setVersion ∧
      m.definitionVersion = r.definitionVersion ∧ m.parameters.keys = r.passed ∧
      q.properties.parameters.keys = r.declared := by
  simp only [rootCopies?, Option.bind_eq_bind, Option.bind_eq_some_iff, Option.pure_def,
    Option.some.injEq] at h
  -- What was computed names the copies that make up the use.
  obtain ⟨g, hg, a, ha, p, hp, m, hm, q, hq, rfl⟩ := h
  have hroot : "root" ∈ t.added := by
    have hadded : t.added = ["root"] := hadded
    simp [hadded]
  have hsegments : IsSegment "suite" ∧ IsSegment "deploy" := by decide
  refine ⟨a, m, q, ⟨⟨"root", hroot, g, _, hg, ha⟩, ⟨"root", hroot, g, p, hg, hp, ?_, ?_⟩,
    ⟨"root", g, hg, hq, ?_⟩⟩, rfl, rfl, rfl, rfl⟩
  · exact List.mem_of_mem_head? hm
  · exact ⟨hsegments.1, hset⟩
  · exact ⟨hsegments.2, hdefinition⟩

end Sample

namespace History

/-- At `suiteRoot` the pins lead to the definitions that were copied. -/
theorem declared_of_pins_suiteRoot :
    Sample.suiteCatalog.source.AnswersAs Sample.suiteCatalog ∧
    ∃ a m q,
      DeployedUse (after Sample.suiteCatalog.source false suiteRoot) a "suite" m "deploy" q ∧
      Sample.suiteCatalog.policySetDefinition? "suite" a.properties.definitionVersion =
        Sample.suiteCatalog.policySetDefinition? "suite" none ∧
      Sample.suiteCatalog.policyDefinition? "deploy" m.definitionVersion =
        Sample.suiteCatalog.policyDefinition? "deploy" none ∧
      ∀ parameter ∈ m.parameters.keys, (q.parameter? parameter).isSome = true := by
  have hcopies : Sample.rootCopies? (after Sample.suiteCatalog.source false suiteRoot) =
      some ⟨["root"], ResourceId.policySetDefinition "root" "suite", none,
        ResourceId.policyDefinition "root" "deploy", none, ["workspace"], ["workspace"]⟩ := by
    decide +kernel
  obtain ⟨a, m, q, huse, hversion, hversion', -, -⟩ :=
    Sample.exists_deployedUse hcopies rfl rfl rfl
  have hc := Sample.suiteCatalog.source_answersAs
  -- Neither of the two is pinned.
  have hset := congrArg (Sample.suiteCatalog.policySetDefinition? "suite") hversion
  have hdefinition := congrArg (Sample.suiteCatalog.policyDefinition? "deploy") hversion'
  exact ⟨hc, a, m, q, huse, hset, hdefinition, declared_of_pins hc huse hset hdefinition⟩

/-- The assignment, the set definition and the definition are deployed at one group, and the
member passes a parameter that the copy of the definition does not declare. -/
theorem undeclared_of_pin :
    Sample.pinnedCatalog.source.AnswersAs Sample.pinnedCatalog ∧
    ∃ a m q,
      DeployedUse (after Sample.pinnedCatalog.source false suiteRoot) a "suite" m "deploy" q ∧
      ∃ parameter ∈ m.parameters.keys, q.parameter? parameter = none := by
  have hcopies : Sample.rootCopies? (after Sample.pinnedCatalog.source false suiteRoot) =
      some ⟨["root"], ResourceId.policySetDefinition "root" "suite", none,
        ResourceId.policyDefinition "root" "deploy", some "1.0.0", ["workspace"], []⟩ := by
    decide +kernel
  obtain ⟨a, m, q, huse, -, -, hpassed, hdeclared⟩ :=
    Sample.exists_deployedUse hcopies rfl rfl rfl
  refine ⟨Sample.pinnedCatalog.source_answersAs, a, m, q, huse, "workspace", by simp [hpassed], ?_⟩
  -- A parameter that is found would be among the declared ones.
  rw [Option.eq_none_iff_forall_ne_some]
  intro parameter hparameter
  have hmem := OrderedMap.mem_keys.mpr ⟨parameter, hparameter⟩
  simp [hdeclared] at hmem

end History

end Governance
