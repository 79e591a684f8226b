import Governance.Proofs.Hierarchy.Checked

/-!
# `Governance.Proofs.Hierarchy.Failures`: what can fail after a group was added

`History.failures_after` bounds the failures of calls on the groups of any run over a
catalog. What the additions have checked does not fail: no reference is invalid, and neither
a set definition nor the definition of a member is missing. A derivation of roles fails only
in the ways of `DerivationFault`, and an edit never in those of `ReferenceFault`.

One lemma for each query says how it may fail, from the innermost to the whole derivation.
They need of a registry that its groups pass the checks (`Registry.Fits`), which every run
leaves (`History.fits_after`).
-/

set_option autoImplicit false

namespace Governance

variable {σ : Type} {src : AssetSource σ} {c : Catalog} {I : σ → Prop}

/-- The ways in which a derivation over the groups of `r` may fail: an identity that no role
is asked for, a required parameter without a value, or no policy definition where an
assignment with an identity refers to one directly. -/
inductive DerivationFault (r : Registry) : HierarchyError → Prop
  | noRoles (group assignment definition : String) :
    DerivationFault r (.noRoleDefinitions group assignment definition)
  | noValue (group assignment parameter : String) (reference : Option String) :
    DerivationFault r (.unresolvedPermissionParameter group assignment parameter reference)
  | noDefinition {g : Group} {name definition : String} {a : PolicyAssignment}
    (hg : r.get? g.id = some g) (ha : g.policyAssignments.get? name = some a)
    (hidentity : a.usesManagedIdentity = true)
    (htarget : a.referencedDefinition = .ok (.definition definition)) :
    DerivationFault r (.assetNotFound g.id .policyDefinition definition none)

/-- A reference is invalid, or a set definition is missing. -/
inductive ReferenceFault : HierarchyError → Prop
  | invalid (group : String) (kind : AssetKind) (asset : String) (cause : ReferenceError) :
    ReferenceFault (.invalidReference group kind asset cause)
  | noSet (group name : String) (archetype : Option String) :
    ReferenceFault (.assetNotFound group .policySetDefinition name archetype)

namespace Query

/-! ### Look-ups in a catalog -/

/-- A look-up that never fails in itself fails only because nothing is found. -/
theorem require_reached {α : Type} {l : LookUp σ α} {o : Option α} {err : HierarchyError → Prop}
    (hl : ∀ s, (l s).1 = .ok o) (hI : l.Keeps I) {error : HierarchyError} (herr : err error) :
    Ensures I (require error l) (fun _ => True) err :=
  .require hI (fun _ _ _ => trivial) (fun _ _ => herr) fun s e hs => by simp [hl s] at hs

/-- A set definition that the source has is found. -/
theorem setDefinition_found (hc : src.AnswersAs c) (hI : src.Keeps I) {set : String}
    {version : Option String} {p : PolicySetDefinition} {err : HierarchyError → Prop}
    (hp : (src.policySetDefinition set version).Answers p) (group : String) :
    Ensures I (setDefinition src group none set version) (fun q => q = p) err :=
  require_found ((hc.steady.policySetDefinition set version).always hp)
    (hI.policySetDefinition set version) _

/-! ### Roles of one assignment -/

variable {r : Registry}

/-- A parameter without a value is a fault only if it has to have one. -/
theorem unsupplied_ensures (site : GrantSite) (parameter : String) (p : ParameterDefinition) :
    Ensures I (site.unsupplied parameter p : Query σ _) (fun _ => True) (DerivationFault r) := by
  unfold GrantSite.unsupplied
  split
  · exact .pure trivial
  · exact .throw (.noValue _ _ _ _)

/-- The findings for a definition fail for such a parameter only. -/
theorem forDefinition_ensures (site : GrantSite) (p : PolicyDefinition)
    (scope : String → Option ScopeOutcome) :
    Ensures I (site.forDefinition p scope : Query σ _) (fun _ => True) (DerivationFault r) := by
  unfold GrantSite.forDefinition
  refine (Ensures.mapM (P := fun _ _ => True) fun e _ => ?_).bind fun parts _ => .pure trivial
  refine Ensures.bind_any ?_ fun outcome => .pure trivial
  unfold GrantSite.outcome
  cases scope e.1 with
  | some outcome => exact .pure trivial
  | none => exact unsupplied_ensures site e.1 e.2

/-- A member that fits has its definition. -/
theorem deriveMember_ensures (hc : src.AnswersAs c) (hI : src.Keeps I) (g : Group)
    (name set : String) (env : Expression.Environment) {m : SetMember} (hm : MemberFits src m) :
    Ensures I (deriveMember src g name set env m) (fun _ => True) (DerivationFault r) := by
  obtain ⟨definitionName, p, hname, hp, -⟩ := hm
  -- The name was read before, so reading it again is no failure.
  have hmember : (memberName g.id set m : Query σ String) = pure definitionName := by
    rw [memberName, hname]
  unfold deriveMember
  rw [hmember, pure_bind]
  have hfound := (hc.steady.policyDefinition definitionName m.definitionVersion).always hp
  refine (require_found hfound (hI.policyDefinition _ _) _).bind fun q _ => ?_
  split
  · exact .pure trivial
  · exact (forDefinition_ensures _ q _).bind_any fun _ => .pure trivial

/-- The findings for a set fail for its roles only, as its members are there. -/
theorem deriveSet_ensures (hc : src.AnswersAs c) (hI : src.Keeps I) (g : Group) (name : String)
    (a : PolicyAssignment) {set : String} {p : PolicySetDefinition}
    (hp : (src.policySetDefinition set a.properties.definitionVersion).Answers p)
    (hmembers : ∀ m ∈ p.properties.members, MemberFits src m) :
    Ensures I (deriveSet src g name a set) (fun _ => True) (DerivationFault r) := by
  unfold deriveSet
  refine (setDefinition_found hc hI hp g.id).bind ?_
  rintro q rfl
  refine (Ensures.mapM (P := fun _ _ => True) fun m hm =>
    deriveMember_ensures hc hI g name set _ (hmembers m hm)).bind fun parts _ => ?_
  -- The last way to fail is that no member has a role.
  split
  · exact .throw (.noRoles _ _ _)
  · exact .pure trivial

/-- Only a direct reference can be to a definition that is missing. -/
theorem deriveAssignment_ensures (hc : src.AnswersAs c) (hI : src.Keeps I) {g : Group}
    {name : String} {a : PolicyAssignment} (hg : r.get? g.id = some g)
    (ha : g.policyAssignments.get? name = some a) (hfit : MembersFit src a) :
    Ensures I (deriveAssignment src g name a) (fun _ => True) (DerivationFault r) := by
  obtain ⟨t, ht, hset⟩ := hfit
  unfold deriveAssignment
  split
  · exact .pure trivial
  · rename_i hidentity
    have hidentity : a.usesManagedIdentity = true := by simpa using hidentity
    have htarget : (target g.id name a : Query σ _) = pure t := by rw [target, ht]
    rw [htarget, pure_bind]
    -- The reference was read, so it is left to look it up. A definition may be missing, but a set
    -- passed the check of its members.
    cases t with
    | definition definitionName =>
      refine (require_reached (hc.policyDefinition _ _) (hI.policyDefinition _ _)
        (.noDefinition hg ha hidentity ht)).bind fun p _ => ?_
      split
      · exact .throw (.noRoles _ _ _)
      · exact forDefinition_ensures _ p _
    | setDefinition set =>
      obtain ⟨p, hp, hmembers⟩ := hset set rfl
      exact deriveSet_ensures hc hI g name a hp hmembers

/-! ### Roles of all groups -/

/-- The findings for all groups fail for the roles only, where no signal to stop is given. -/
theorem deriveAll_ensures (hc : src.AnswersAs c) (hI : src.Keeps I)
    (hquiet : ∀ s, I s → src.stopped s = false) (hlinked : r.Linked) (hfits : r.Fits src) :
    Ensures I (deriveAll src r) (fun _ => True) (DerivationFault r) := by
  refine (Ensures.mapM (P := fun _ _ => True) fun e he => ?_).mono (fun _ _ => trivial)
    fun _ he => he
  obtain ⟨id, g⟩ := e
  have hg : r.get? id = some g := OrderedMap.get?_eq_some_iff.mpr he
  -- Errors name the id that the group has, and it is registered under that id.
  obtain rfl := hlinked.id_eq hg
  refine Ensures.bind_any ?_ fun _ => .pure trivial
  unfold deriveGroup
  refine (checkStopped_ensures fun s hs hstopped => ?_).bind_any fun _ => ?_
  · simp [hquiet s hs] at hstopped
  · refine (Ensures.mapM (P := fun _ _ => True) fun e he => ?_).bind fun _ _ => .pure trivial
    have ha := OrderedMap.get?_eq_some_iff.mpr he
    exact deriveAssignment_ensures hc hI hg ha (hfits g.id g hg e.1 e.2 ha)

/-! ### Edits -/

/-- What an assignment refers to is there, or it is a policy definition. -/
theorem checkDeclared_ensures (hc : src.AnswersAs c) (group name : String)
    {a : PolicyAssignment} (hfit : MembersFit src a) (parameters : List String) :
    Ensures (fun _ => True) (checkDeclared src group name a parameters) (fun _ => True)
      fun e => ¬ ReferenceFault e := by
  obtain ⟨t, ht, hset⟩ := hfit
  have hI := src.keeps_true
  have hdeclared : Ensures (fun _ => True) (declared src group a) (fun _ => True)
      fun e => ¬ ReferenceFault e := by
    -- The reference was checked, so there is no failure to read it.
    have htarget : (target group a.name a : Query σ _) = pure t := by rw [target, ht]
    unfold declared
    rw [htarget, pure_bind]
    cases t with
    | definition definitionName =>
      have hmissing : ¬ ReferenceFault
          (.assetNotFound group .policyDefinition definitionName none) := by rintro ⟨⟩
      exact (require_reached (hc.policyDefinition _ _) (hI.policyDefinition _ _) hmissing).bind_any
        fun _ => .pure trivial
    | setDefinition set =>
      obtain ⟨p, hp, -⟩ := hset set rfl
      exact (setDefinition_found hc hI hp group).bind fun _ _ => .pure trivial
  unfold checkDeclared
  refine hdeclared.bind_any ?_
  rintro ⟨definitionName, declaredParameters⟩
  dsimp only
  split
  · refine .throw ?_
    rintro ⟨⟩
  · exact .pure trivial

/-- To find the sites at a group is not refused because of a reference. -/
theorem defaultSites_ensures (hc : src.AnswersAs c) (m : DefaultMapping) {g : Group}
    (hfits : g.Fits src) :
    Ensures (fun _ => True) (defaultSites src m g) (fun _ => True)
      fun e => ¬ ReferenceFault e := by
  unfold defaultSites
  refine (checkStopped_ensures fun _ _ _ => nofun).bind_any fun _ => ?_
  refine (Ensures.mapM (P := fun _ _ => True) fun e _ => ?_).bind fun _ _ => .pure trivial
  unfold defaultSite
  cases ha : g.policyAssignments.get? e.1 with
  | none => exact .pure trivial
  | some a =>
    exact (checkDeclared_ensures hc g.id e.1 (hfits e.1 a ha) _).bind_any fun _ => .pure trivial

/-- To find the sites at all groups is not refused because of a reference. -/
theorem allDefaultSites_ensures (hc : src.AnswersAs c) {r : Registry} (hfits : r.Fits src)
    (name : String) :
    Ensures (fun _ => True) (allDefaultSites src r name) (fun _ => True)
      fun e => ¬ ReferenceFault e := by
  have hI := src.keeps_true
  unfold allDefaultSites
  refine (require_reached (hc.defaultMapping name) (hI.defaultMapping name) nofun).bind_any
    fun m => ?_
  refine (Ensures.mapM (P := fun _ _ => True) fun g hg => ?_).bind fun _ _ => .pure trivial
  obtain ⟨id, hid⟩ := OrderedMap.mem_values.mp hg
  exact defaultSites_ensures hc m (hfits id g hid)

end Query

/-! ### Calls -/

namespace Hierarchy

/-- A change of an assignment is not refused because of a reference. -/
theorem changed_failures (hc : src.AnswersAs c) {r : Registry} (hfits : r.Fits src)
    (group name : String) (change : AssignmentChange) :
    Query.Ensures (fun _ => True) (changed src r group name change) (fun _ => True)
      fun e => ¬ ReferenceFault e := by
  refine (changed_ensures src (fun e he => ?_) fun a ha => ?_).mono (fun _ _ => trivial)
    fun _ he => he
  · obtain rfl | rfl := error_of_assignmentCopy? he <;> nofun
  · -- An assignment that is there passed its check when it was added.
    obtain ⟨g, hg, hheld⟩ := assignmentCopy?_eq_ok.mp ha
    exact Query.checkDeclared_ensures hc group name (hfits group g hg name a hheld) _

variable {h : Hierarchy} {s : σ} {e : HierarchyError}

/-- Without a signal to stop, a derivation fails only because of the roles. -/
theorem derive_failure (hc : src.AnswersAs c) (hs : src.Unfired s) (hlinked : h.groups.Linked)
    (hfits : h.groups.Fits src) (he : (h.derive src s).1.1 = .error e) :
    DerivationFault h.groups e := by
  obtain ⟨quiet, hkeeps, hquiet, hs⟩ := hs
  rw [derive_run] at he
  rcases hrun : (Query.deriveAll src h.groups).run s with ⟨e' | found, s'⟩
  · simp only [hrun, Except.error.injEq] at he
    subst he
    exact ((Query.deriveAll_ensures hc hkeeps hquiet hlinked hfits).of_error hs hrun).1
  · simp [hrun] at he

/-- A default is not refused because of what an assignment refers to. -/
theorem applyDefault_failure (hc : src.AnswersAs c) (hfits : h.groups.Fits src) {name : String}
    {v : Json} (he : (h.applyDefault src name v s).1.1 = .error e) : ¬ ReferenceFault e := by
  rw [applyDefault_run] at he
  rcases hrun : (Query.allDefaultSites src h.groups name).run s with ⟨e' | sites, s'⟩
  · simp only [hrun, Except.error.injEq] at he
    subst he
    exact ((Query.allDefaultSites_ensures hc hfits name).of_error trivial hrun).1
  · simp [hrun] at he

/-- A modification is not refused because of what the assignment refers to. -/
theorem modifyAssignment_failure (hc : src.AnswersAs c) (hfits : h.groups.Fits src)
    {group name : String} {change : AssignmentChange}
    (he : (h.modifyAssignment src group name change s).1.1 = .error e) : ¬ ReferenceFault e := by
  rw [modifyAssignment_run] at he
  rcases hrun : (changed src h.groups group name change).run s with ⟨e' | a, s'⟩
  · simp only [hrun, Except.error.injEq] at he
    subst he
    exact ((changed_failures hc hfits group name change).of_error trivial hrun).1
  · simp [hrun] at he

end Hierarchy

namespace History

/-- Take a run over a catalog that leaves groups with readable ids only. Without a signal to
stop, a derivation of roles succeeds, or it fails in one of three ways that have to do with
roles. A default and a modification fail neither because of an invalid reference nor because
a set definition is missing. -/
theorem failures_after (hc : src.AnswersAs c) (uniqueRoles : Bool) (calls : List (σ × Call))
    (hids : (after src uniqueRoles calls).hierarchy.groups.Readable) :
    let h := (after src uniqueRoles calls).hierarchy
    (∀ s, src.Unfired s → ∀ e, (h.derive src s).1.1 = .error e → DerivationFault h.groups e) ∧
    (∀ s name v e, (h.applyDefault src name v s).1.1 = .error e → ¬ ReferenceFault e) ∧
    ∀ s group name change e,
      (h.modifyAssignment src group name change s).1.1 = .error e → ¬ ReferenceFault e := by
  intro h
  have hlinked : h.groups.Linked := linked_after src uniqueRoles calls
  have hfits : h.groups.Fits src := fits_after uniqueRoles calls hids
  -- The assignments still pass the checks of their addition, which is what each call needs.
  refine ⟨?_, ?_, ?_⟩
  · intro s hs e he
    exact Hierarchy.derive_failure hc hs hlinked hfits he
  · intro s name v e he
    exact Hierarchy.applyDefault_failure hc hfits he
  · intro s group name change e he
    exact Hierarchy.modifyAssignment_failure hc hfits he

/-- After the run `holderAbove`, whose ids are readable, calls fail as described. -/
theorem failures_after_holderAbove :
    Sample.catalog.source.AnswersAs Sample.catalog ∧
    (after Sample.catalog.source false holderAbove).hierarchy.groups.Readable ∧
    let h := (after Sample.catalog.source false holderAbove).hierarchy
    (∀ s, Sample.catalog.source.Unfired s → ∀ e,
      (h.derive Sample.catalog.source s).1.1 = .error e → DerivationFault h.groups e) ∧
    (∀ s name v e,
      (h.applyDefault Sample.catalog.source name v s).1.1 = .error e → ¬ ReferenceFault e) ∧
    ∀ s group name change e,
      (h.modifyAssignment Sample.catalog.source group name change s).1.1 = .error e →
        ¬ ReferenceFault e := by
  have hc : Sample.catalog.source.AnswersAs Sample.catalog := Sample.catalog.source_answersAs
  have hids : (after Sample.catalog.source false holderAbove).hierarchy.groups.Readable := by
    decide +kernel
  exact ⟨hc, hids, failures_after hc false holderAbove hids⟩

end History

end Governance
