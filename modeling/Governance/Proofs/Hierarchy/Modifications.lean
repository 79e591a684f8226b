import Governance.Proofs.Hierarchy.Defaults
import Governance.Proofs.Hierarchy.Failures

/-!
# `Governance.Proofs.Hierarchy.Modifications`: a named default and single modifications

A named default checks all its sites before it writes to the first. The same value can be written by
modifications, one for each site, and each of them is checked in a registry that the earlier ones
have changed already.

* `Query.checkDeclared_passes`: a check passes from every state of the source, if what the
  assignment refers to declares the parameters. The values of parameters have no part in that, so a
  site that is accepted at the start is accepted later (`Registry.Receives.accepts_iff`).
* `Hierarchy.modifyAssignment_setting_iff`: one modification succeeds if and only if its site is
  accepted, and then fills the site. `Hierarchy.modifyEach_eq_ok_iff` says so of all of them.
* `Registry.Receives.unique`: a registry that has received a value is determined by the targets, and
  so the order drops out.

`History.applyDefault_iff_modifyEach` puts the two ways together. They differ where a default lists
no parameter for an assignment: the default looks up what the assignment refers to all the same,
the modification does not.
-/

set_option autoImplicit false

namespace Governance

variable {σ : Type} {src : AssetSource σ} {I : σ → Prop}

/-! ### Checks that pass -/

namespace Query

variable {a : PolicyAssignment}

/-- If what an assignment refers to declares some parameter, it is found, and all that it declares
is found with it. -/
theorem declared_found (hsrc : src.Steady) (hI : src.Keeps I) (group : String) {parameter : String}
    (h : a.Declares src parameter) :
    ∃ d, Ensures I (declared src group a) (fun d' => d' = d) (fun _ => False) ∧
      ∀ p, a.Declares src p → d.2.contains p = true := by
  cases h with
  | @definition name definition ht hp =>
    -- The look-up finds the definition again, and it is the only one that can declare anything.
    have htarget : (target group a.name a : Query σ _) = pure (.definition name) := by
      rw [target, ht]
    have halways := (hsrc.policyDefinition name a.properties.definitionVersion).always hp
    refine ⟨(name, definition.properties.parameters), ?_, fun p hdeclares => ?_⟩
    · unfold declared
      rw [htarget, pure_bind]
      refine (require_found halways (hI.policyDefinition _ _) _).bind ?_
      rintro _ rfl
      exact .pure rfl
    · cases hdeclares with
      | definition ht' hp' hparameter =>
        obtain rfl : name = _ := by simpa [ht] using ht'
        obtain rfl := (hsrc.consistent.policyDefinition _ _).eq_of_answers hp hp'
        exact hparameter
      | setDefinition ht' => simp [ht] at ht'
  | @setDefinition name set ht hp =>
    -- So it is for a set definition.
    have htarget : (target group a.name a : Query σ _) = pure (.setDefinition name) := by
      rw [target, ht]
    have halways := (hsrc.policySetDefinition name a.properties.definitionVersion).always hp
    refine ⟨(name, set.properties.parameters), ?_, fun p hdeclares => ?_⟩
    · unfold declared
      rw [htarget, pure_bind]
      refine (require_found halways (hI.policySetDefinition _ _) _).bind ?_
      rintro _ rfl
      exact .pure rfl
    · cases hdeclares with
      | definition ht' => simp [ht] at ht'
      | setDefinition ht' hp' hparameter =>
        obtain rfl : name = _ := by simpa [ht] using ht'
        obtain rfl := (hsrc.consistent.policySetDefinition _ _).eq_of_answers hp hp'
        exact hparameter

/-- A check of declared parameters passes from every state. There must be one of them: without a
parameter, nothing says that what the assignment refers to is there. -/
theorem checkDeclared_passes (hsrc : src.Steady) (hI : src.Keeps I) (group name : String)
    {parameters : List String} (hparameters : parameters ≠ [])
    (h : ∀ p ∈ parameters, a.Declares src p) :
    Ensures I (checkDeclared src group name a parameters) (fun _ => True) fun _ => False := by
  obtain ⟨first, hfirst⟩ := List.exists_mem_of_ne_nil parameters hparameters
  -- One declared parameter is enough to know that the look-up succeeds.
  obtain ⟨d, hd, hall⟩ := declared_found hsrc hI group (h first hfirst)
  have hnone : (parameters.find? fun p => !d.2.contains p) = none := by
    refine List.find?_eq_none.mpr fun p hp => ?_
    simp [hall p (h p hp)]
  unfold checkDeclared
  refine hd.bind ?_
  rintro _ rfl
  dsimp only
  rw [hnone]
  exact .pure trivial

end Query

/-! ### Sites that are accepted -/

/-- The group of the site holds its assignment, and what the assignment refers to declares the
parameters of the site. -/
def Registry.Accepts (src : AssetSource σ) (r : Registry) (site : DefaultSite) : Prop :=
  ∃ a, r.assignment? site.group site.assignment = some a ∧
    ∀ p ∈ site.parameters.toList, a.Declares src p

/-- What an assignment refers to does not depend on its parameters. -/
theorem PolicyAssignment.Declares.of_withoutParameters {a a' : PolicyAssignment} {p : String}
    (h : a.Declares src p) (heq : a'.withoutParameters = a.withoutParameters) :
    a'.Declares src p := by
  have hframe : a'.frame = a.frame := by
    show a'.withoutParameters.frame = a.withoutParameters.frame
    rw [heq]
  -- What declares parameters is found by the reference and its version, which the frame shows.
  obtain ⟨hreference, hversion⟩ := reference_of_frame hframe
  have htarget : a'.referencedDefinition = a.referencedDefinition :=
    congrArg Reference.target hreference
  cases h with
  | definition ht hp hparameter =>
    exact .definition (htarget.trans ht) (hversion ▸ hp) hparameter
  | setDefinition ht hp hparameter =>
    exact .setDefinition (htarget.trans ht) (hversion ▸ hp) hparameter

/-- A site that is accepted is accepted where its assignment differs in its parameters only. -/
theorem Registry.Accepts.congr {r r' : Registry} {site : DefaultSite} (h : r.Accepts src site)
    (heq : (r'.assignment? site.group site.assignment).map PolicyAssignment.withoutParameters =
      (r.assignment? site.group site.assignment).map PolicyAssignment.withoutParameters) :
    r'.Accepts src site := by
  obtain ⟨a, ha, hdeclares⟩ := h
  rw [ha, Option.map_some] at heq
  obtain ⟨a', ha', hsame⟩ := Option.map_eq_some_iff.mp heq
  exact ⟨a', ha', fun p hp => (hdeclares p hp).of_withoutParameters hsame⟩

/-- To write a value changes nothing about which sites are accepted. -/
theorem Registry.Receives.accepts_iff {v : Json} {targets : List (String × String × String)}
    {r r' : Registry} (h : Receives v targets r r') (site : DefaultSite) :
    r'.Accepts src site ↔ r.Accepts src site := by
  have heq := h.assignments site.group site.assignment
  constructor
  · intro haccepts
    exact haccepts.congr heq.symm
  · intro haccepts
    exact haccepts.congr heq

/-- The sites of a default are accepted if and only if the checks of the default pass. -/
theorem DefaultMapping.accepts_sites_iff {m : DefaultMapping} {r : Registry}
    (hlinked : r.Linked) : (∀ site ∈ m.sites r, r.Accepts src site) ↔
      ∀ g ∈ r.values, ∀ e ∈ m.assignments.entries, g.DeclaresEntry src e := by
  constructor
  · intro haccepts g hg e he a ha p hp
    obtain ⟨id, hid⟩ := OrderedMap.mem_values.mp hg
    obtain rfl := hlinked.id_eq hid
    have hsite : ⟨g.id, e.1, e.2⟩ ∈ m.sites r :=
      List.mem_flatten.mpr ⟨_, List.mem_map.mpr ⟨g, hg, rfl⟩,
        mem_sitesAt.mpr ⟨e, he, OrderedMap.contains_eq_true.mpr ⟨a, ha⟩, rfl⟩⟩
    obtain ⟨a', ha', hdeclares⟩ := haccepts _ hsite
    have hheld : r.assignment? g.id e.1 = some a := Option.bind_eq_some_iff.mpr ⟨g, hid, ha⟩
    -- The copy at the site is the one that the group holds.
    obtain rfl := Option.some.inj (ha'.symm.trans hheld)
    exact hdeclares p hp
  · intro hdeclares site hsite
    obtain ⟨_, hat, hsite⟩ := List.mem_flatten.mp hsite
    obtain ⟨g, hg, rfl⟩ := List.mem_map.mp hat
    obtain ⟨e, he, hheld, rfl⟩ := mem_sitesAt.mp hsite
    obtain ⟨id, hid⟩ := OrderedMap.mem_values.mp hg
    obtain rfl := hlinked.id_eq hid
    obtain ⟨a, ha⟩ := OrderedMap.contains_eq_true.mp hheld
    exact ⟨a, Option.bind_eq_some_iff.mpr ⟨g, hid, ha⟩, hdeclares g hg e he a ha⟩

/-! ### One modification -/

/-- The map with one value under all members of the set. -/
def OrderedSet.toMap {κ α : Type} [Ord κ] (s : OrderedSet κ) (v : α) : OrderedMap κ α :=
  ⟨s.toList.map (·, v), List.pairwise_map.mpr s.ascending⟩

/-- The keys of the map are the elements of the set. -/
@[simp] theorem OrderedSet.keys_toMap {κ α : Type} [Ord κ] (s : OrderedSet κ) (v : α) :
    (s.toMap v).keys = s.toList := by
  simp [OrderedMap.keys, toMap, Function.comp_def]

/-- The change that sets parameters to one value, and nothing else. -/
def AssignmentChange.setting (parameters : OrderedSet String) (v : Json) : AssignmentChange where
  parameters := parameters.toMap v
  enforcementMode := none
  notScopes := none
  nonComplianceMessages := none
  identity := none

/-- To make the change is to fill the parameters. -/
theorem PolicyAssignment.change_setting (a : PolicyAssignment) (parameters : OrderedSet String)
    (v : Json) : a.change (.setting parameters v) = a.filled parameters.toList v := by
  -- To fill parameters one by one is to write them into the map one by one.
  have hfilled : ∀ (l : List String) (a : PolicyAssignment), a.filled l v =
      { a with properties := { a.properties with
          parameters := l.foldl (fun m p => m.insert p v) a.properties.parameters } } := by
    intro l
    induction l with
    | nil => exact fun _ => rfl
    | cons p rest ih => exact fun a => ih (a.setParameter p v)
  rw [hfilled]
  simp only [change, AssignmentChange.setting, OrderedSet.toMap, OrderedMap.override,
    List.foldl_map]
  rfl

namespace Hierarchy

variable {h h' : Hierarchy} {r : Registry} {site : DefaultSite} {v : Json}

/-- The copy is found where the registry has the assignment. -/
theorem assignmentCopy?_eq_ok_iff {group name : String} {a : PolicyAssignment} :
    assignmentCopy? r group name = .ok a ↔ r.assignment? group name = some a :=
  assignmentCopy?_eq_ok.trans Option.bind_eq_some_iff.symm

/-- A modification that is made has passed its check. -/
theorem changed_setting_accepts (src : AssetSource σ) (r : Registry) (site : DefaultSite)
    (v : Json) :
    Query.Ensures (fun _ => True)
      (changed src r site.group site.assignment (.setting site.parameters v))
      (fun a' => ∃ a, r.assignment? site.group site.assignment = some a ∧
        (∀ p ∈ site.parameters.toList, a.Declares src p) ∧ a' = a.filled site.parameters.toList v)
      fun _ => True := by
  refine (Query.Ensures.ofExcept (fun _ ha => ha) fun _ _ => trivial).bind fun a ha => ?_
  have hheld := assignmentCopy?_eq_ok_iff.mp ha
  have hchange := a.change_setting site.parameters v
  split
  · refine (Query.checkDeclared_declares src site.group site.assignment a _).bind
      fun _ hdeclares => .pure ⟨a, hheld, fun p hp => hdeclares p ?_, hchange⟩
    simpa [AssignmentChange.setting] using hp
  · -- Without parameters nothing is checked, and nothing has to be declared.
    rename_i hempty
    have hnil : site.parameters.toList = [] := by
      simpa [AssignmentChange.setting, OrderedMap.isEmpty, OrderedSet.toMap] using hempty
    exact .pure ⟨a, hheld, by simp [hnil], hchange⟩

/-- A modification of a site that is accepted is made. -/
theorem changed_setting_found (hsrc : src.Steady) (haccepts : r.Accepts src site) (v : Json) :
    Query.Ensures (fun _ => True)
      (changed src r site.group site.assignment (.setting site.parameters v)) (fun _ => True)
      fun _ => False := by
  obtain ⟨a, ha, hdeclares⟩ := haccepts
  unfold changed
  rw [assignmentCopy?_eq_ok_iff.mpr ha]
  have hcopy : Query.Ensures (fun _ => True) (MonadExcept.ofExcept (.ok a) : Query σ _)
      (fun a' => a' = a) fun _ => False := .pure rfl
  refine hcopy.bind ?_
  rintro _ rfl
  split
  · rename_i hparameters
    have hne : site.parameters.toList ≠ [] := by
      simpa [AssignmentChange.setting, OrderedMap.isEmpty, OrderedSet.toMap] using hparameters
    have hkeys : (AssignmentChange.setting site.parameters v).parameters.keys =
        site.parameters.toList := OrderedSet.keys_toMap _ _
    rw [hkeys]
    exact (Query.checkDeclared_passes hsrc src.keeps_true _ _ hne hdeclares).bind_any
      fun _ => .pure trivial
  · -- Without parameters to set, there is no check.
    exact .pure trivial

/-- What is written for a copy is what the site is filled with. -/
theorem modify_eq_fillSite {a : PolicyAssignment}
    (ha : r.assignment? site.group site.assignment = some a) :
    (r.modify site.group fun g =>
      g.modifyAssignment site.assignment fun _ => a.filled site.parameters.toList v) =
      fillSite v r site := by
  obtain ⟨g, hg, hga⟩ := Option.bind_eq_some_iff.mp ha
  unfold fillSite
  -- Both write at the one assignment that is there, so it may be put in for the one that is found.
  refine OrderedMap.modify_congr fun g' hg' => ?_
  obtain rfl := Option.some.inj (hg.symm.trans hg')
  unfold Group.modifyAssignment
  congr 1
  refine OrderedMap.modify_congr fun a' ha' => ?_
  obtain rfl := Option.some.inj (hga.symm.trans ha')
  rfl

/-- A modification that sets the parameters of a site succeeds if and only if the site is accepted,
and then it fills the site. The state of the source does not matter. -/
theorem modifyAssignment_setting_iff (hsrc : src.Steady) (s : σ) :
    (∃ a, (h.modifyAssignment src site.group site.assignment
        (.setting site.parameters v) s).1 = (.ok a, h')) ↔
      h.groups.Accepts src site ∧ h' = { h with groups := fillSite v h.groups site } := by
  rw [modifyAssignment_run]
  constructor
  · rintro ⟨a', hrun⟩
    rcases hchanged : (changed src h.groups site.group site.assignment
      (.setting site.parameters v)).run s with ⟨e | a'', s'⟩
    · simp [hchanged] at hrun
    · obtain ⟨⟨a, ha, hdeclares, rfl⟩, -⟩ :=
        (changed_setting_accepts src h.groups site v).of_ok trivial hchanged
      simp only [hchanged, Prod.mk.injEq, modify_eq_fillSite ha] at hrun
      exact ⟨⟨a, ha, hdeclares⟩, hrun.2.symm⟩
  · rintro ⟨haccepts, rfl⟩
    obtain ⟨a', s', hchanged, -⟩ := (changed_setting_found hsrc haccepts v).exists_ok trivial
      (s := s)
    -- The change that succeeds is the one that fills the site.
    obtain ⟨⟨a, ha, -, rfl⟩, -⟩ :=
      (changed_setting_accepts src h.groups site v).of_ok trivial hchanged
    refine ⟨a.filled site.parameters.toList v, ?_⟩
    simp only [hchanged, modify_eq_fillSite ha]

/-! ### One modification after another -/

/-- Sets the parameters of sites one after another, each with the source in the state that comes
with it, until a modification fails. -/
def modifyEach (src : AssetSource σ) (v : Json) : List (σ × DefaultSite) → Hierarchy →
    Except HierarchyError Hierarchy
  | [], h => .ok h
  | (s, site) :: rest, h =>
    match (h.modifyAssignment src site.group site.assignment (.setting site.parameters v) s).1 with
    | (.error e, _) => .error e
    | (.ok _, h') => modifyEach src v rest h'

/-- All modifications succeed if and only if all sites are accepted at the start, and then they fill
the sites in their order. -/
theorem modifyEach_eq_ok_iff (hsrc : src.Steady) (v : Json) (order : List (σ × DefaultSite))
    (h : Hierarchy) : modifyEach src v order h = .ok h' ↔
      (∀ site ∈ order.map Prod.snd, h.groups.Accepts src site) ∧
        h' = { h with groups := (order.map Prod.snd).foldl (fillSite v) h.groups } := by
  induction order generalizing h with
  | nil => simp [modifyEach, eq_comm]
  | cons call rest ih =>
    obtain ⟨s, site⟩ := call
    have hfirst : ∀ h₁, (∃ a, (h.modifyAssignment src site.group site.assignment
        (.setting site.parameters v) s).1 = (.ok a, h₁)) ↔
        h.groups.Accepts src site ∧ h₁ = { h with groups := fillSite v h.groups site } :=
      fun _ => modifyAssignment_setting_iff hsrc s
    -- What the first one writes changes nothing about what the rest are accepted for.
    have hrest : ∀ site', (fillSite v h.groups site).Accepts src site' ↔
        h.groups.Accepts src site' :=
      (fillSite_receives v h.groups site).accepts_iff
    rw [modifyEach]
    rcases hrun : (h.modifyAssignment src site.group site.assignment
      (.setting site.parameters v) s).1 with ⟨e | a, h₁⟩
    · have hrefused : ¬ h.groups.Accepts src site := by
        intro haccepts
        obtain ⟨a, ha⟩ := (hfirst _).mpr ⟨haccepts, rfl⟩
        simp [hrun] at ha
      simp [hrefused]
    · obtain ⟨haccepts, rfl⟩ := (hfirst h₁).mp ⟨a, hrun⟩
      dsimp only
      rw [ih]
      simp [hrest, haccepts]

end Hierarchy

/-! ### The order of writes -/

/-- An assignment is determined by its parameters and what else is in it. -/
theorem PolicyAssignment.ext_parameters {a a' : PolicyAssignment}
    (h : a.withoutParameters = a'.withoutParameters)
    (hvalues : ∀ p, a.parameterValue? p = a'.parameterValue? p) : a = a' := by
  have hparameters : a.properties.parameters = a'.properties.parameters :=
    OrderedMap.ext_get? hvalues
  have hrebuilt : ∀ a : PolicyAssignment, { a.withoutParameters with properties :=
      { a.withoutParameters.properties with parameters := a.properties.parameters } } = a :=
    fun _ => rfl
  rw [← hrebuilt a, ← hrebuilt a', h, hparameters]

/-- A group is determined by its assignments and what else is in it. -/
theorem Group.ext_assignments {g g' : Group}
    (h : { g with policyAssignments := {} } = { g' with policyAssignments := {} })
    (hassignments : ∀ name, g.policyAssignments.get? name = g'.policyAssignments.get? name) :
    g = g' := by
  have hsame : g.policyAssignments = g'.policyAssignments := OrderedMap.ext_get? hassignments
  cases g
  cases g'
  simp_all

namespace Registry

variable {r r' r'' : Registry} {v : Json} {targets targets' : List (String × String × String)}

/-- A registry is determined by its assignments and what else is in its groups. -/
theorem ext_assignments (hothers : r.withoutAssignments = r'.withoutAssignments)
    (hassignments : ∀ id name, r.assignment? id name = r'.assignment? id name) : r = r' := by
  refine OrderedMap.ext_get? fun id => ?_
  have hgroup : r.withoutAssignments.get? id = r'.withoutAssignments.get? id := by rw [hothers]
  have hid := hassignments id
  unfold withoutAssignments at hgroup
  rw [OrderedMap.get?_map, OrderedMap.get?_map] at hgroup
  unfold assignment? at hid
  -- A group is in both or in neither, since all but the assignments is the same.
  cases hr : r.get? id with
  | none =>
    rw [hr, Option.map_none] at hgroup
    exact (Option.map_eq_none_iff.mp hgroup.symm).symm
  | some g =>
    rw [hr, Option.map_some] at hgroup
    obtain ⟨g', hg', hsame⟩ := Option.map_eq_some_iff.mp hgroup.symm
    rw [hr, hg'] at hid
    rw [hg', Group.ext_assignments hsame.symm hid]

/-- What a registry has received is determined by the targets, whatever their order. -/
theorem Receives.unique (h : Receives v targets r r') (h' : Receives v targets' r r'')
    (htargets : ∀ t, t ∈ targets ↔ t ∈ targets') : r' = r'' := by
  refine ext_assignments (h.others.trans h'.others.symm) fun id name => ?_
  have hparts := (h.assignments id name).trans (h'.assignments id name).symm
  have hvalues : ∀ p, r'.parameter? id name p = r''.parameter? id name p := by
    intro p
    rw [h.parameters, h'.parameters]
    simp only [htargets]
  unfold parameter? at hvalues
  -- An assignment is the same if its parameters and all else of it are.
  cases ha' : r'.assignment? id name with
  | none =>
    rw [ha', Option.map_none] at hparts
    exact (Option.map_eq_none_iff.mp hparts.symm).symm
  | some a' =>
    rw [ha', Option.map_some] at hparts
    obtain ⟨a'', ha'', hsame⟩ := Option.map_eq_some_iff.mp hparts.symm
    rw [ha', ha''] at hvalues
    rw [ha'', PolicyAssignment.ext_parameters hsame.symm hvalues]

end Registry

/-- Sites that are filled in another order leave the same registry. -/
theorem Hierarchy.fillSites_perm {v : Json} {sites sites' : List DefaultSite}
    (h : sites.Perm sites') (r : Registry) :
    sites.foldl (fillSite v) r = sites'.foldl (fillSite v) r :=
  (fillSites_receives v sites r).unique (fillSites_receives v sites' r)
    fun _ => (h.flatMap_right DefaultSite.targets).mem_iff

/-! ### Both ways -/

namespace Query

variable {m : DefaultMapping} {name : String}

/-- Without the signal to stop, the first walk of a default reaches its end if all sites are
accepted and each entry of the default lists a parameter. -/
theorem allDefaultSites_passes (hsrc : src.Steady) (hI : src.Keeps I)
    (hquiet : ∀ s, I s → src.stopped s = false) {r : Registry} (hlinked : r.Linked)
    (hm : (src.defaultMapping name).Answers m)
    (hlisted : ∀ e ∈ m.assignments.entries, e.2.toList ≠ [])
    (haccepts : ∀ site ∈ m.sites r, r.Accepts src site) :
    Ensures I (allDefaultSites src r name) (fun _ => True) fun _ => False := by
  have hdeclares := (DefaultMapping.accepts_sites_iff hlinked).mp haccepts
  -- The walk goes over the groups, and at a group over the entries. No step of it can fail.
  have hsite : ∀ g ∈ r.values, ∀ e ∈ m.assignments.entries,
      Ensures I (defaultSite src g e) (fun _ => True) fun _ => False := by
    intro g hg e he
    unfold defaultSite
    cases ha : g.policyAssignments.get? e.1 with
    | none => exact .pure trivial
    | some a =>
      have hcheck := checkDeclared_passes hsrc hI g.id e.1 (hlisted e he) (hdeclares g hg e he a ha)
      exact hcheck.bind_any fun _ => .pure trivial
  have hsites : ∀ g ∈ r.values, Ensures I (defaultSites src m g) (fun _ => True)
      fun _ => False := by
    intro g hg
    have hstopped : Ensures I (checkStopped src) (fun _ => True) fun _ => False :=
      checkStopped_ensures fun s hs hstop => by simp [hquiet s hs] at hstop
    have hwalk := Ensures.mapM (P := fun _ _ => True) (hsite g hg)
    exact hstopped.bind_any fun _ => hwalk.bind fun _ _ => .pure trivial
  have hmapping : Ensures I (require (.defaultValueNotFound name) (src.defaultMapping name))
      (fun m' => m' = m) fun _ => False :=
    require_found ((hsrc.defaultMapping name).always hm) (hI.defaultMapping name) _
  unfold allDefaultSites
  refine hmapping.bind ?_
  rintro _ rfl
  exact (Ensures.mapM (P := fun _ _ => True) hsites).bind fun _ _ => .pure trivial

end Query

namespace Hierarchy

variable {h h' : Hierarchy} {m : DefaultMapping} {name : String} {v : Json} {s : σ}

/-- A default that is applied has all its sites accepted, and fills them. -/
theorem applyDefault_accepts (hsrc : src.Consistent) (hlinked : h.groups.Linked)
    (hm : (src.defaultMapping name).Answers m) {k : Nat}
    (hok : (h.applyDefault src name v s).1 = (.ok k, h')) :
    (∀ site ∈ m.sites h.groups, h.groups.Accepts src site) ∧
      h' = { h with groups := (m.sites h.groups).foldl (fillSite v) h.groups } := by
  obtain ⟨e, he⟩ | ⟨m', hm', hdeclared, hwritten⟩ := h.applyDefault_cases src name v s
  · simp [he] at hok
  · obtain rfl := (hsrc.defaultMapping name).eq_of_answers hm hm'
    rw [hwritten, Prod.mk.injEq] at hok
    exact ⟨(DefaultMapping.accepts_sites_iff hlinked).mpr hdeclared, hok.2.symm⟩

/-- A default whose sites are all accepted is applied, if it lists parameters only and nothing stops
it. -/
theorem applyDefault_of_accepts (hsrc : src.Steady) (hlinked : h.groups.Linked)
    (hm : (src.defaultMapping name).Answers m) (hs : src.Unfired s)
    (hlisted : ∀ e ∈ m.assignments.entries, e.2.toList ≠ [])
    (haccepts : ∀ site ∈ m.sites h.groups, h.groups.Accepts src site) :
    ∃ k, (h.applyDefault src name v s).1 = (.ok k,
      { h with groups := (m.sites h.groups).foldl (fillSite v) h.groups }) := by
  obtain ⟨quiet, hkeeps, hquiet, hs⟩ := hs
  obtain ⟨sites, s', hrun, -⟩ := (Query.allDefaultSites_passes hsrc hkeeps hquiet hlinked hm hlisted
    haccepts).exists_ok hs
  have hok : ∃ k h', (h.applyDefault src name v s).1 = (.ok k, h') := by
    rw [applyDefault_run, hrun]
    exact ⟨_, _, rfl⟩
  obtain ⟨k, h', hok⟩ := hok
  -- A call that succeeds has written just the sites.
  obtain ⟨-, rfl⟩ := applyDefault_accepts hsrc.consistent hlinked hm hok
  exact ⟨k, hok⟩

end Hierarchy

namespace History

/-- After every run over a steady source, take a default that the source has, and the sites that
it has there. If the default is applied, then the modifications of the sites succeed in every order,
and leave what the default leaves. If the modifications succeed in some order, and the default lists
a parameter for each assignment, then it is applied, unless it is told to stop, and leaves what they
leave. -/
theorem applyDefault_iff_modifyEach (hsrc : src.Steady) (uniqueRoles : Bool)
    (calls : List (σ × Call)) {name : String} {m : DefaultMapping}
    (hm : (src.defaultMapping name).Answers m) (v : Json) {s : σ} (hs : src.Unfired s) :
    let h := (after src uniqueRoles calls).hierarchy
    (∀ k h', (h.applyDefault src name v s).1 = (.ok k, h') →
      ∀ order : List (σ × DefaultSite), (order.map Prod.snd).Perm (m.sites h.groups) →
        Hierarchy.modifyEach src v order h = .ok h') ∧
    ((∀ e ∈ m.assignments.entries, e.2.toList ≠ []) →
      ∀ (order : List (σ × DefaultSite)) (h' : Hierarchy),
        (order.map Prod.snd).Perm (m.sites h.groups) →
        Hierarchy.modifyEach src v order h = .ok h' →
          ∃ k, (h.applyDefault src name v s).1 = (.ok k, h')) := by
  intro h
  have hlinked : h.groups.Linked := linked_after src uniqueRoles calls
  constructor
  · intro k h' hok order hperm
    -- Both are the sites filled one after another, and the order does not matter.
    obtain ⟨haccepts, rfl⟩ := Hierarchy.applyDefault_accepts hsrc.consistent hlinked hm hok
    refine (Hierarchy.modifyEach_eq_ok_iff hsrc v order h).mpr ⟨fun site hsite => ?_, ?_⟩
    · exact haccepts site (hperm.mem_iff.mp hsite)
    · rw [Hierarchy.fillSites_perm hperm]
  · intro hlisted order h' hperm hok
    obtain ⟨haccepts, rfl⟩ := (Hierarchy.modifyEach_eq_ok_iff hsrc v order h).mp hok
    rw [Hierarchy.fillSites_perm hperm]
    exact Hierarchy.applyDefault_of_accepts hsrc hlinked hm hs hlisted fun site hsite =>
      haccepts site (hperm.mem_iff.mpr hsite)

end History

namespace Sample

/-- A default for two parameters of an assignment, and for an assignment that no group has. -/
def span : DefaultMapping :=
  ⟨"span", none,
    .ofList [("assign-audit", .ofList ["from", "to"]), ("elsewhere", .ofList ["from"])]⟩

/-- A root with the assignment, and a group below it with the assignment. -/
def auditedTwice : List (Bool × Call) := auditedRoot ++
  [(false, .add ⟨"leaf", "Leaf", .group "root", "westeurope", false, ["user"]⟩)]

/-- The two groups. -/
def auditedGroups : Hierarchy := (History.after defaultCatalog.source false auditedTwice).hierarchy

/-- The sites of the default on the two groups, from the last to the first, each modified while the
signal to stop is on. -/
def lastFirst : List (Bool × DefaultSite) :=
  (span.sites auditedGroups.groups).reverse.map (true, ·)

/-- The order has all sites of the default. -/
theorem perm_lastFirst : (lastFirst.map Prod.snd).Perm (span.sites auditedGroups.groups) := by
  have hsites : lastFirst.map Prod.snd = (span.sites auditedGroups.groups).reverse := by
    simp [lastFirst, Function.comp_def]
  rw [hsites]
  exact List.reverse_perm _

end Sample

/-- The default writes four parameters, and the modifications in the other order write them too. -/
theorem History.applyDefault_iff_modifyEach_auditedTwice :
    Sample.defaultCatalog.source.Steady ∧
    (Sample.defaultCatalog.source.defaultMapping "span").Answers Sample.span ∧
    Sample.defaultCatalog.source.Unfired false ∧
    (∀ e ∈ Sample.span.assignments.entries, e.2.toList ≠ []) ∧
    (Sample.lastFirst.map Prod.snd).Perm (Sample.span.sites Sample.auditedGroups.groups) ∧
    ∃ h', (Sample.auditedGroups.applyDefault Sample.defaultCatalog.source "span" .null false).1 =
        (.ok 4, h') ∧
      Hierarchy.modifyEach Sample.defaultCatalog.source .null Sample.lastFirst
        Sample.auditedGroups = .ok h' ∧
      ∃ k, (Sample.auditedGroups.applyDefault Sample.defaultCatalog.source "span" .null false).1 =
        (.ok k, h') := by
  have hsrc : Sample.defaultCatalog.source.Steady :=
    Sample.defaultCatalog.source_answersAs.steady
  have hm : (Sample.defaultCatalog.source.defaultMapping "span").Answers Sample.span :=
    ⟨false, rfl⟩
  have hs : Sample.defaultCatalog.source.Unfired false := Sample.defaultCatalog.source_unfired
  have hlisted : ∀ e ∈ Sample.span.assignments.entries, e.2.toList ≠ [] := by decide
  have hfour : (Sample.auditedGroups.applyDefault Sample.defaultCatalog.source "span" .null
      false).1.1.toOption = some 4 := by decide +kernel
  have hok : ∃ h', (Sample.auditedGroups.applyDefault Sample.defaultCatalog.source "span" .null
      false).1 = (.ok 4, h') := by
    generalize (Sample.auditedGroups.applyDefault Sample.defaultCatalog.source "span" .null
      false).1 = ended at hfour ⊢
    exact ⟨ended.2, Prod.ext (ok_of_toOption hfour) rfl⟩
  obtain ⟨h', hok⟩ := hok
  -- From the default to the changes, and from them back.
  obtain ⟨hforward, hbackward⟩ :=
    applyDefault_iff_modifyEach hsrc false Sample.auditedTwice hm .null hs
  have heach := hforward 4 h' hok Sample.lastFirst Sample.perm_lastFirst
  exact ⟨hsrc, hm, hs, hlisted, Sample.perm_lastFirst, h', hok, heach,
    hbackward hlisted Sample.lastFirst h' Sample.perm_lastFirst heach⟩

end Governance
