import Governance.Proofs.Hierarchy.Demands
import Governance.Proofs.Hierarchy.Tree

/-!
# `Governance.Proofs.Hierarchy.Derivation`: reports of role grants

A derivation asks the source for every group before it changes any. So it fails without a
trace, or it gives a report and replaces the grants of each group by its part of the report
(`GrantReport.part`).

* `History.report_after`: a report has the grants that the demands of the assignments call
  for, no others, and one error for each value that is no scope (`GrantReport.Exact`).
* `History.derive_after`: a failure changes nothing, an answer changes grants only, and under
  the same answers of the source a second derivation gives the same report and changes
  nothing more.

For the second derivation each query is followed once more, with the rules of
`Query.Repeats`: `deriveAll_repeats` and `deriveAll_withGrants` together say that it finds
what the first one found.
-/

set_option autoImplicit false

namespace Governance

variable {σ : Type} {src : AssetSource σ}

/-! ### Reports -/

/-- The grants of one group. -/
def GrantReport.part (report : GrantReport) (id : String) : OrderedSet RoleGrant :=
  ⟨report.forGroup id, report.grants.ascending.filter _⟩

/-- The hierarchy with the grants of a report in the place of all others. -/
def Hierarchy.granted (h : Hierarchy) (report : GrantReport) : Hierarchy :=
  { h with groups := h.groups.map fun id g => { g with grants := report.part id } }

/-- The report says what the demands of the assignments of a registry come to.

- `demands`: `ds` has the demands of each assignment, by its group and its name;
- `grants`: a role is granted at the group and at each scope that a parameter of the same
  demand gives, and nowhere else;
- `errors`: the parameters with a value that is no scope, group by group. -/
structure GrantReport.Exact (src : AssetSource σ) (r : Registry)
    (ds : String → String → List Demand) (report : GrantReport) : Prop where
  demands : ∀ id g, r.get? id = some g → ∀ name a, g.policyAssignments.get? name = some a →
    DemandsOf src a (ds id name)
  grants : ∀ x, report.grants.contains x = true ↔
    ∃ g a, r.get? x.group = some g ∧ g.policyAssignments.get? x.assignment = some a ∧
      ∃ d ∈ ds x.group x.assignment, x.roleDefinitionId ∈ d.definition.roleDefinitionIds ∧
        (x.scope = g.resourceId ∨ d.GivesScope x.scope)
  errors : report.errors = r.entries.flatMap fun e =>
    e.2.policyAssignments.keys.flatMap fun name => (ds e.1 name).flatMap fun d => d.errors e.1 name

namespace Group

/-- The grants found for a group are those of the demands of its assignments. -/
theorem mem_grants_findings {g : Group} {ds : String → List Demand} {x : RoleGrant} :
    x ∈ (g.findings ds).grants ↔ x.group = g.id ∧
      ∃ a, g.policyAssignments.get? x.assignment = some a ∧ ∃ d ∈ ds x.assignment,
        x.roleDefinitionId ∈ d.definition.roleDefinitionIds ∧
        (x.scope = g.resourceId ∨ d.GivesScope x.scope) := by
  simp only [findings, Findings.grants_join, List.flatMap_map, List.mem_flatMap,
    Demand.mem_grants_findings]
  constructor
  · rintro ⟨⟨name, a⟩, hmem, d, hd, rfl, hgroup, hrole, hscope⟩
    exact ⟨hgroup, a, OrderedMap.get?_eq_some_iff.mpr hmem, d, hd, hrole, hscope⟩
  · rintro ⟨hgroup, a, ha, d, hd, hrole, hscope⟩
    exact ⟨(x.assignment, a), OrderedMap.get?_eq_some_iff.mp ha, d, hd, rfl, hgroup, hrole, hscope⟩

/-- The errors found for a group are those of the demands of its assignments. -/
theorem errors_findings (g : Group) (ds : String → List Demand) :
    (g.findings ds).errors = g.policyAssignments.keys.flatMap fun name =>
      (ds name).flatMap fun d => d.errors g.id name := by
  simp only [findings, Findings.errors_join, List.flatMap_map, Demand.errors_findings,
    OrderedMap.keys]

end Group

namespace Hierarchy

variable {r : Registry} {ds : String → String → List Demand}

/-- The findings for the groups of a registry. -/
def findings (r : Registry) (ds : String → String → List Demand) : List (String × Findings) :=
  r.entries.map fun e => (e.1, e.2.findings (ds e.1))

/-- In a registry with its groups under their ids, the findings make an exact report. -/
theorem reportOf_exact (hr : r.Linked)
    (hds : ∀ id g, r.get? id = some g → ∀ name a, g.policyAssignments.get? name = some a →
      DemandsOf src a (ds id name)) :
    (reportOf (findings r ds)).Exact src r ds where
  demands := hds
  grants x := by
    simp only [reportOf, findings, OrderedSet.contains_ofList, List.flatMap_map, List.mem_flatMap,
      Group.mem_grants_findings]
    -- The group that a grant names is the one that it was found for.
    constructor
    · rintro ⟨⟨id, g⟩, hmem, hgroup, a, hrest⟩
      have hg := OrderedMap.get?_eq_some_iff.mpr hmem
      obtain rfl : x.group = id := hgroup.trans (hr.id_eq hg)
      exact ⟨g, a, hg, hrest⟩
    · rintro ⟨g, a, hg, hrest⟩
      exact ⟨(x.group, g), OrderedMap.get?_eq_some_iff.mp hg, (hr.id_eq hg).symm, a, hrest⟩
  errors := by
    simp only [reportOf, findings, List.flatMap_map, Group.errors_findings]
    refine List.flatMap_congr fun e he => ?_
    rw [hr.id_eq (OrderedMap.get?_eq_some_iff.mpr he)]

/-- The part of a report for a group is what was found for it. -/
theorem part_reportOf (hr : r.Linked) {id : String} {g : Group} (hg : r.get? id = some g) :
    (reportOf (findings r ds)).part id = OrderedSet.ofList (g.findings (ds id)).grants := by
  refine OrderedSet.ext_contains fun x => ?_
  rw [OrderedSet.contains_iff_mem, OrderedSet.contains_ofList]
  simp only [GrantReport.part, GrantReport.forGroup, List.mem_filter, beq_iff_eq,
    ← OrderedSet.contains_iff_mem, reportOf, OrderedSet.contains_ofList, findings,
    List.flatMap_map, List.mem_flatMap]
  constructor
  · rintro ⟨⟨⟨id', g'⟩, hmem, hx⟩, hgroup⟩
    -- The group that the grant was found for is the one that it names.
    have hg' := OrderedMap.get?_eq_some_iff.mpr hmem
    obtain rfl : id' = id := by
      rw [← hgroup, (Group.mem_grants_findings.mp hx).1, hr.id_eq hg']
    rw [hg, Option.some.injEq] at hg'
    rwa [hg']
  · intro hx
    refine ⟨⟨(id, g), OrderedMap.get?_eq_some_iff.mp hg, hx⟩, ?_⟩
    rw [(Group.mem_grants_findings.mp hx).1, hr.id_eq hg]

/-- The grants that were found are those of the report. -/
theorem withGrants_findings (hr : r.Linked) : withGrants r (findings r ds) =
    r.map fun id g => { g with grants := (reportOf (findings r ds)).part id } := by
  refine OrderedMap.map_congr fun id g hg => ?_
  -- The findings are the entries of a map, so each group meets its own.
  have hlookup : (findings r ds).lookup id = some (g.findings (ds id)) := by
    have hentries : findings r ds = (r.map fun id g => g.findings (ds id)).entries := rfl
    rw [hentries, OrderedMap.lookup_entries, OrderedMap.get?_map, hg, Option.map_some]
  rw [hlookup, part_reportOf hr hg]

/-- Grants that are replaced twice are those of the second time. -/
theorem withGrants_withGrants (r : Registry) (found : List (String × Findings)) :
    withGrants (withGrants r found) found = withGrants r found := by
  unfold withGrants
  rw [OrderedMap.map_map]
  refine OrderedMap.map_congr fun id g _ => ?_
  cases found.lookup id <;> rfl

end Hierarchy

/-! ### A second derivation -/

namespace Query

variable {R : σ → σ → Prop}

/-- The target of an assignment is the same again. -/
theorem target_repeats (group name : String) (a : PolicyAssignment) :
    Repeats R (target group name a) := by
  unfold target
  split
  · exact .pure _
  · exact .throw _

/-- The name of a member is the same again. -/
theorem memberName_repeats (group set : String) (m : SetMember) :
    Repeats R (memberName group set m) := by
  unfold memberName
  split
  · exact .pure _
  · exact .throw _

/-- The findings for a definition are the same again, as they ask the source for nothing. -/
theorem forDefinition_repeats (site : GrantSite) (p : PolicyDefinition)
    (scope : String → Option ScopeOutcome) : Repeats R (site.forDefinition p scope) := by
  unfold GrantSite.forDefinition
  refine (Repeats.mapM (fun e => Repeats.bind ?_ fun o => .pure _) _).bind fun _ => .pure _
  unfold GrantSite.outcome GrantSite.unsupplied
  split
  · exact .pure _
  · split
    · exact .pure _
    · exact .throw _

variable (hsrc : src.Every (LookUp.Repeats R))

include hsrc

/-- The findings for an assigned definition are the same again. -/
theorem deriveDirect_repeats (g : Group) (name : String) (a : PolicyAssignment)
    (definitionName : String) : Repeats R (deriveDirect src g name a definitionName) := by
  refine (Repeats.require (hsrc.policyDefinition _ _) _).bind fun p => ?_
  split
  · exact .throw _
  · exact forDefinition_repeats _ _ _

/-- The findings for a member are the same again. -/
theorem deriveMember_repeats (g : Group) (name set : String) (env : Expression.Environment)
    (m : SetMember) : Repeats R (deriveMember src g name set env m) := by
  refine (memberName_repeats g.id set m).bind fun definitionName => ?_
  refine (Repeats.require (hsrc.policyDefinition _ _) _).bind fun p => ?_
  split
  · exact .pure _
  · exact (forDefinition_repeats _ _ _).bind fun _ => .pure _

/-- The findings for an assignment are the same again. -/
theorem deriveAssignment_repeats (g : Group) (name : String) (a : PolicyAssignment) :
    Repeats R (deriveAssignment src g name a) := by
  unfold deriveAssignment
  split
  · exact .pure _
  · -- The target is the same, and so is what is looked up for it.
    refine (target_repeats g.id name a).bind fun t => ?_
    cases t with
    | definition definitionName => exact deriveDirect_repeats hsrc g name a definitionName
    | setDefinition set =>
      refine (Repeats.require (hsrc.policySetDefinition _ _) _).bind fun p => ?_
      refine (Repeats.mapM (deriveMember_repeats hsrc g name set _) _).bind fun parts => ?_
      split
      · exact .throw _
      · exact .pure _

/-- An answer of a derivation is given again under the same answers of the source. -/
theorem deriveAll_repeats
    (hstop : ∀ s s', R s s' → src.stopped s' = true → src.stopped s = true) (r : Registry) :
    Repeats R (deriveAll src r) := by
  refine Repeats.mapM (fun e => Repeats.bind ?_ fun _ => .pure _) _
  refine (Repeats.checkStopped hstop).bind fun _ => ?_
  exact (Repeats.mapM (fun _ => deriveAssignment_repeats hsrc e.2 _ _) _).bind
    fun _ => .pure _

omit hsrc

/-- A derivation does not read the grants of earlier ones. -/
theorem deriveAll_withGrants (src : AssetSource σ) (r : Registry)
    (found : List (String × Findings)) :
    deriveAll src (Hierarchy.withGrants r found) = deriveAll src r := by
  -- The queries read the id and the assignments of a group.
  have hgroup : ∀ (g : Group) (grants : OrderedSet RoleGrant),
      deriveGroup src { g with grants := grants } = deriveGroup src g := fun _ _ => rfl
  unfold deriveAll Hierarchy.withGrants OrderedMap.map
  rw [List.mapM_map]
  congr 1
  funext e
  dsimp only [Function.comp_apply]
  cases found.lookup e.1 with
  | none => rfl
  | some findings => rw [hgroup]

end Query

namespace Hierarchy

/-- A derivation that gives a report has found what the demands of the assignments say, and
leaves these grants. -/
theorem derive_eq_ok {h h' : Hierarchy} {s : σ} {report : GrantReport}
    (hr : h.groups.Linked) (hok : (h.derive src s).1 = (.ok report, h')) :
    ∃ ds found s', report.Exact src h.groups ds ∧ report = reportOf found ∧
      (Query.deriveAll src h.groups).run s = (.ok found, s') ∧
      h' = { h with groups := withGrants h.groups found } ∧ h' = h.granted report := by
  rw [derive_run] at hok
  -- It succeeds if all queries do, and what they found is the report and the new grants.
  rcases hrun : (Query.deriveAll src h.groups).run s with ⟨e | found, s'⟩
  · simp [hrun] at hok
  · simp only [hrun, Prod.mk.injEq, Except.ok.injEq] at hok
    obtain ⟨rfl, rfl⟩ := hok
    obtain ⟨⟨ds, hds, rfl⟩, -⟩ :=
      (Query.deriveAll_answers src.keeps_true h.groups).of_ok trivial hrun
    exact ⟨ds, _, s', reportOf_exact hr hds, rfl, rfl, rfl,
      congrArg (Hierarchy.mk · _) (withGrants_findings hr)⟩

end Hierarchy

namespace History

variable (uniqueRoles : Bool) (calls : List (σ × Call))

/-- A report that a derivation gives after some run is exact. Where the answers of the source
agree with each other, the demands that it accounts for are the only ones. -/
theorem report_after {s : σ} {report : GrantReport}
    (hok : ((after src uniqueRoles calls).hierarchy.derive src s).1.1 = .ok report) :
    let r := (after src uniqueRoles calls).hierarchy.groups
    ∃ ds, report.Exact src r ds ∧
      (src.Consistent → ∀ id g, r.get? id = some g →
        ∀ name a, g.policyAssignments.get? name = some a →
          ∀ ds', DemandsOf src a ds' → ds' = ds id name) := by
  intro r
  obtain ⟨ds, -, -, hexact, -⟩ := Hierarchy.derive_eq_ok (linked_after src uniqueRoles calls)
    (Prod.ext hok rfl)
  refine ⟨ds, hexact, fun hsrc id g hg name a ha ds' hds' => ?_⟩
  exact hds'.unique hsrc (hexact.demands id g hg name a ha)

/-- The member with an expression is granted the role at both scopes. The broken one gives an
error, and its grant at the group is that of the other one. -/
theorem derive_suiteRoot :
    ∃ report, ((after Sample.suiteCatalog.source false suiteRoot).hierarchy.derive
        Sample.suiteCatalog.source false).1.1 = .ok report ∧
      report.grants.toList = [⟨"assign-suite", "contributor",
          "/providers/Microsoft.Management/managementGroups/root", "root"⟩,
        ⟨"assign-suite", "contributor", "/subscriptions/logs", "root"⟩] ∧
      report.errors.map DerivationError.reference = [some "broken"] := by
  have hfound : ((after Sample.suiteCatalog.source false suiteRoot).hierarchy.derive
      Sample.suiteCatalog.source false).1.1.toOption.map
        (fun report => (report.grants.toList, report.errors.map DerivationError.reference)) =
      some ([⟨"assign-suite", "contributor",
          "/providers/Microsoft.Management/managementGroups/root", "root"⟩,
        ⟨"assign-suite", "contributor", "/subscriptions/logs", "root"⟩], [some "broken"]) := by
    decide +kernel
  -- The run gives a report, and its grants and errors are those that were computed.
  obtain ⟨report, hreport, hcontents⟩ := Option.map_eq_some_iff.mp hfound
  obtain ⟨hgrants, herrors⟩ := Prod.mk.inj hcontents
  exact ⟨report, ok_of_toOption hreport, hgrants, herrors⟩

/-- The report at `suiteRoot` is exact for the demands of the assignments. -/
theorem report_after_suiteRoot :
    ∃ report, ((after Sample.suiteCatalog.source false suiteRoot).hierarchy.derive
        Sample.suiteCatalog.source false).1.1 = .ok report ∧
      let r := (after Sample.suiteCatalog.source false suiteRoot).hierarchy.groups
      ∃ ds, report.Exact Sample.suiteCatalog.source r ds ∧
        (Sample.suiteCatalog.source.Consistent → ∀ id g, r.get? id = some g →
          ∀ name a, g.policyAssignments.get? name = some a →
            ∀ ds', DemandsOf Sample.suiteCatalog.source a ds' → ds' = ds id name) := by
  obtain ⟨report, hok, -, -⟩ := derive_suiteRoot
  exact ⟨report, hok, report_after false suiteRoot hok⟩

/-- A derivation after some run that fails changes nothing. One that gives a report replaces
the grants of each group by its part of the report and changes nothing else, and a second
derivation under the same answers gives the same report and leaves the hierarchy as it is. -/
theorem derive_after (src : AssetSource σ) (s : σ) :
    let h := (after src uniqueRoles calls).hierarchy
    (∀ e, (h.derive src s).1.1 = .error e → (h.derive src s).1.2 = h) ∧
    ∀ report, (h.derive src s).1.1 = .ok report →
      (h.derive src s).1.2 = h.granted report ∧
      ∀ s', src.AnswersAgain s s' →
        ((h.granted report).derive src s').1 = (.ok report, h.granted report) := by
  intro h
  have hr : h.groups.Linked := linked_after src uniqueRoles calls
  constructor
  · intro e he
    rw [Hierarchy.derive_run] at he ⊢
    rcases hrun : (Query.deriveAll src h.groups).run s with ⟨e' | found, t⟩
    · rfl
    · simp [hrun] at he
  · intro report hok
    obtain ⟨ds, found, t, -, rfl, hrun, hafter, hgranted⟩ :=
      Hierarchy.derive_eq_ok hr (Prod.ext hok rfl)
    refine ⟨hgranted, fun s' ⟨R, hsrc, hstop, hR⟩ => ?_⟩
    -- The queries are those of the first time, and so are their answers.
    obtain ⟨t', hrun', -⟩ := Query.deriveAll_repeats hsrc hstop h.groups s s' hR found t hrun
    rw [← hgranted, hafter, Hierarchy.derive_run, Query.deriveAll_withGrants, hrun']
    dsimp only
    rw [Hierarchy.withGrants_withGrants]

/-- A second derivation at `suiteRoot` gives the same report. -/
theorem derive_after_suiteRoot :
    Sample.suiteCatalog.source.AnswersAgain false false ∧
    ∃ report, ((after Sample.suiteCatalog.source false suiteRoot).hierarchy.derive
        Sample.suiteCatalog.source false).1.1 = .ok report ∧
      let granted := (after Sample.suiteCatalog.source false suiteRoot).hierarchy.granted report
      (granted.derive Sample.suiteCatalog.source false).1 = (.ok report, granted) := by
  have hagain : Sample.suiteCatalog.source.AnswersAgain false false :=
    Sample.suiteCatalog.source_answersAs.steady.answersAgain false
      Sample.suiteCatalog.source_unfired
  obtain ⟨report, hok, -, -⟩ := derive_suiteRoot
  obtain ⟨-, hsucceeds⟩ := derive_after false suiteRoot Sample.suiteCatalog.source false
  exact ⟨hagain, report, hok, (hsucceeds report hok).2 false hagain⟩

end History

end Governance
