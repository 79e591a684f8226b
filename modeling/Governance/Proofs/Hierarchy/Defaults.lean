import Governance.Proofs.Hierarchy.Copies
import Mathlib.Data.List.Nodup

/-!
# `Governance.Proofs.Hierarchy.Defaults`: what a named default writes

A named default lists parameters of assignments. To apply it, all groups are walked twice. The first
walk collects the sites of the default and checks that their parameters are declared. It may fail or
be stopped anywhere. The second walk fills the sites, and cannot fail.

* `Query.allDefaultSites_eq`: when the first walk ends with an answer, this is the list of all sites
  (`DefaultMapping.sites`), and each of them passed its check.
* `Hierarchy.fillSites_receives`: the second walk writes the targets of the sites and nothing else
  (`Registry.Receives`). One site at a time is written, and the differences add up.
* `DefaultMapping.mem_targets` and `DefaultMapping.nodup_targets`: the targets are the parameters
  that the default reaches, each of them once.

`History.applyDefault_whole` puts them together for every run.
-/

set_option autoImplicit false

namespace Governance

variable {σ : Type} {src : AssetSource σ}

/-! ### What a default reaches -/

namespace Registry

/-- The copy of an assignment on a group. -/
def assignment? (r : Registry) (id name : String) : Option PolicyAssignment :=
  (r.get? id).bind fun g => g.policyAssignments.get? name

/-- The value of a parameter in the copy of an assignment on a group. -/
def parameter? (r : Registry) (id name parameter : String) : Option Json :=
  (r.assignment? id name).bind fun a => a.parameterValue? parameter

/-- The groups without their assignments. -/
def withoutAssignments (r : Registry) : Registry :=
  r.map fun _ g => { g with policyAssignments := {} }

end Registry

/-- What an assignment refers to declares a parameter, in the version that the assignment pins. -/
inductive PolicyAssignment.Declares (src : AssetSource σ) (a : PolicyAssignment)
    (parameter : String) : Prop
  | definition {name : String} {p : PolicyDefinition}
    (ht : a.referencedDefinition = .ok (.definition name))
    (hp : (src.policyDefinition name a.properties.definitionVersion).Answers p)
    (hparameter : p.properties.parameters.contains parameter = true) : Declares src a parameter
  | setDefinition {name : String} {p : PolicySetDefinition}
    (ht : a.referencedDefinition = .ok (.setDefinition name))
    (hp : (src.policySetDefinition name a.properties.definitionVersion).Answers p)
    (hparameter : p.properties.parameters.contains parameter = true) : Declares src a parameter

/-- The parameters of a site, each with its group and its assignment. -/
def DefaultSite.targets (site : DefaultSite) : List (String × String × String) :=
  site.parameters.toList.map fun parameter => (site.group, site.assignment, parameter)

/-- The targets of a site are at its group and at its assignment. -/
theorem DefaultSite.mem_targets {site : DefaultSite} {id name parameter : String} :
    (id, name, parameter) ∈ site.targets ↔
      id = site.group ∧ name = site.assignment ∧ parameter ∈ site.parameters.toList := by
  simp only [targets, List.mem_map, Prod.mk.injEq]
  constructor
  · rintro ⟨_, hmem, rfl, rfl, rfl⟩
    exact ⟨rfl, rfl, hmem⟩
  · rintro ⟨rfl, rfl, hmem⟩
    exact ⟨parameter, hmem, rfl, rfl, rfl⟩

/-- The site at an entry of a default, if the group holds a copy of its assignment. -/
def Group.defaultSite? (g : Group) (e : String × OrderedSet String) : Option DefaultSite :=
  (g.policyAssignments.get? e.1).map fun _ => ⟨g.id, e.1, e.2⟩

/-- What the copy refers to declares the parameters of the entry, if the group holds one. -/
def Group.DeclaresEntry (src : AssetSource σ) (g : Group) (e : String × OrderedSet String) : Prop :=
  ∀ a, g.policyAssignments.get? e.1 = some a →
    ∀ parameter ∈ e.2.toList, a.Declares src parameter

namespace DefaultMapping

variable (m : DefaultMapping)

/-- The group holds a copy of the assignment, and the default lists the parameter for it. -/
def reaches (r : Registry) (id name parameter : String) : Bool :=
  (r.assignment? id name).isSome &&
    (m.assignments.get? name).any fun parameters => parameters.contains parameter

/-- The sites of the default at a group. -/
def sitesAt (g : Group) : List DefaultSite := m.assignments.entries.filterMap g.defaultSite?

/-- The sites of the default at all groups. -/
def sites (r : Registry) : List DefaultSite := (r.values.map m.sitesAt).flatten

end DefaultMapping

/-! ### The sites that the queries find -/

namespace Query

/-- The parameters that are found are declared by what the assignment refers to. -/
theorem declared_ensures (src : AssetSource σ) (group : String) (a : PolicyAssignment) :
    Ensures (fun _ => True) (declared src group a)
      (fun d => ∀ parameter, d.2.contains parameter = true → a.Declares src parameter)
      fun _ => True := by
  have hI := src.keeps_true
  unfold declared
  refine (target_ensures group a.name a).bind fun t ht => ?_
  -- A definition and a set definition are looked up by themselves, and both declare parameters.
  cases t with
  | definition name =>
    refine (require_ensures (hI.policyDefinition _ _) _).bind fun p hp => .pure ?_
    exact fun parameter hparameter => .definition ht hp hparameter
  | setDefinition name =>
    refine (require_ensures (hI.policySetDefinition _ _) _).bind fun p hp => .pure ?_
    exact fun parameter hparameter => .setDefinition ht hp hparameter

/-- Parameters that pass the check are declared. -/
theorem checkDeclared_declares (src : AssetSource σ) (group name : String) (a : PolicyAssignment)
    (parameters : List String) :
    Ensures (fun _ => True) (checkDeclared src group name a parameters)
      (fun _ => ∀ parameter ∈ parameters, a.Declares src parameter) fun _ => True := by
  unfold checkDeclared
  refine (declared_ensures src group a).bind ?_
  rintro ⟨definitionName, declaredParameters⟩ hdeclared
  dsimp only
  split
  · exact .throw trivial
  -- The check found no parameter that is not declared.
  · rename_i hfound
    refine .pure fun parameter hparameter => hdeclared parameter ?_
    simpa using List.find?_eq_none.mp hfound parameter hparameter

/-- There is a site where the group holds the assignment, and its parameters are declared. -/
theorem defaultSite_eq (src : AssetSource σ) (g : Group) (e : String × OrderedSet String) :
    Ensures (fun _ => True) (defaultSite src g e)
      (fun site => site = g.defaultSite? e ∧ g.DeclaresEntry src e) fun _ => True := by
  unfold defaultSite Group.defaultSite? Group.DeclaresEntry
  -- Without a copy there is no site, and nothing is asked of the source.
  cases ha : g.policyAssignments.get? e.1 with
  | none =>
    refine .pure ⟨rfl, fun a hsome => ?_⟩
    simp at hsome
  | some a =>
    refine (checkDeclared_declares src g.id e.1 a e.2.toList).bind fun _ hdeclared => .pure ?_
    refine ⟨rfl, ?_⟩
    rintro _ ⟨⟩
    exact hdeclared

/-- The sites at a group are found in the order of the default. -/
theorem defaultSites_eq (src : AssetSource σ) (m : DefaultMapping) (g : Group) :
    Ensures (fun _ => True) (defaultSites src m g)
      (fun sites => sites = m.sitesAt g ∧ ∀ e ∈ m.assignments.entries, g.DeclaresEntry src e)
      fun _ => True := by
  unfold defaultSites
  refine (checkStopped_ensures fun _ _ _ => trivial).bind_any fun _ => ?_
  refine (Ensures.mapM_eq_and fun e _ => defaultSite_eq src g e).bind ?_
  rintro _ ⟨rfl, hdeclared⟩
  refine .pure ⟨?_, hdeclared⟩
  rw [DefaultMapping.sitesAt, List.filterMap_map]
  rfl

/-- Wherever the signal to stop comes, the sites that are found are all sites, and each of them
passed its check. -/
theorem allDefaultSites_eq (src : AssetSource σ) (r : Registry) (name : String) :
    Ensures (fun _ => True) (allDefaultSites src r name)
      (fun sites => ∃ m, (src.defaultMapping name).Answers m ∧ sites = m.sites r ∧
        ∀ g ∈ r.values, ∀ e ∈ m.assignments.entries, g.DeclaresEntry src e)
      fun _ => True := by
  unfold allDefaultSites
  refine (require_ensures (src.keeps_true.defaultMapping name) _).bind fun m hm => ?_
  refine (Ensures.mapM_eq_and fun g _ => defaultSites_eq src m g).bind ?_
  rintro _ ⟨rfl, hdeclared⟩
  exact .pure ⟨m, hm, rfl, hdeclared⟩

end Query

/-! ### What is written -/

namespace PolicyAssignment

/-- The parameters that are listed get the value, and the others stay as they are. -/
theorem parameterValue?_filled (parameters : List String) (v : Json) (a : PolicyAssignment)
    (parameter : String) :
    (a.filled parameters v).parameterValue? parameter =
      if parameter ∈ parameters then some v else a.parameterValue? parameter := by
  induction parameters generalizing a with
  | nil => simp [filled]
  | cons first rest ih =>
    show ((a.setParameter first v).filled rest v).parameterValue? parameter = _
    have hfirst : (a.setParameter first v).parameterValue? parameter =
        if parameter = first then some v else a.parameterValue? parameter := by
      simp [parameterValue?, setParameter, OrderedMap.get?_insert]
    rw [ih, hfirst]
    -- A parameter that is listed twice gets one value, so it does not matter which time counts.
    by_cases hrest : parameter ∈ rest <;> by_cases heq : parameter = first <;> simp [hrest, heq]

end PolicyAssignment

namespace Registry

/-- The registry `r'` is `r` with the value `v` in each of the targets, and no other difference:

- `others`: the groups are the same but for their assignments;
- `assignments`: the assignments are the same but for their parameters;
- `parameters`: a parameter that is a target, of a copy that is there, has the value, and every
  other parameter is as before. -/
structure Receives (v : Json) (targets : List (String × String × String)) (r r' : Registry) :
    Prop where
  others : r'.withoutAssignments = r.withoutAssignments
  assignments : ∀ id name, (r'.assignment? id name).map PolicyAssignment.withoutParameters =
    (r.assignment? id name).map PolicyAssignment.withoutParameters
  parameters : ∀ id name parameter, r'.parameter? id name parameter =
    if (r.assignment? id name).isSome = true ∧ (id, name, parameter) ∈ targets then some v
    else r.parameter? id name parameter

namespace Receives

variable {v : Json} {targets targets' : List (String × String × String)} {r r' r'' : Registry}

/-- Without a target nothing is written. -/
theorem refl (v : Json) (r : Registry) : Receives v [] r r := by
  refine ⟨rfl, fun _ _ => rfl, ?_⟩
  intro id name parameter
  simp

/-- Values come into assignments that were there, and no assignment comes or goes. -/
theorem isSome (h : Receives v targets r r') (id name : String) :
    (r'.assignment? id name).isSome = (r.assignment? id name).isSome := by
  have hmap := congrArg Option.isSome (h.assignments id name)
  rwa [Option.isSome_map, Option.isSome_map] at hmap

/-- What is written in two parts has the targets of both. -/
theorem trans (h : Receives v targets r r') (h' : Receives v targets' r' r'') :
    Receives v (targets ++ targets') r r'' where
  others := h'.others.trans h.others
  assignments id name := (h'.assignments id name).trans (h.assignments id name)
  parameters id name parameter := by
    rw [h'.parameters, h.parameters, h.isSome]
    -- Both parts write the same value, so a target of the first part may be one of the second.
    by_cases hheld : (r.assignment? id name).isSome = true
    · by_cases hlast : (id, name, parameter) ∈ targets' <;>
        simp only [hheld, hlast, List.mem_append, true_and, or_true, or_false, if_true, if_false]
    · simp only [hheld, false_and, if_false, Bool.false_eq_true]

end Receives

end Registry

namespace Hierarchy

open Registry (Receives)

/-- Every assignment after a site was filled. -/
theorem assignment?_fillSite (v : Json) (r : Registry) (site : DefaultSite) (id name : String) :
    (fillSite v r site).assignment? id name =
      if id = site.group ∧ name = site.assignment then
        (r.assignment? id name).map fun a => a.filled site.parameters.toList v
      else r.assignment? id name := by
  unfold fillSite Registry.assignment?
  rw [OrderedMap.get?_modify]
  by_cases hid : id = site.group
  · rw [if_pos hid]
    cases r.get? id with
    | none => simp
    | some g =>
      show (g.modifyAssignment site.assignment _).policyAssignments.get? name = _
      rw [Group.modifyAssignment, OrderedMap.get?_modify]
      -- Of the assignments of this group, only the one of the site is filled.
      by_cases hname : name = site.assignment
      · simp [hid, hname]
        rfl
      · simp [hname]
  · simp [hid]

/-- To fill a site writes its targets. -/
theorem fillSite_receives (v : Json) (r : Registry) (site : DefaultSite) :
    Receives v site.targets r (fillSite v r site) where
  others := map_modify fun _ _ => rfl
  assignments id name := by
    rw [assignment?_fillSite]
    split
    · rw [Option.map_map]
      congr 1
      funext a
      exact PolicyAssignment.filled_keeps (fun _ _ => rfl) _ a
    · rfl
  parameters id name parameter := by
    unfold Registry.parameter?
    rw [assignment?_fillSite]
    cases r.assignment? id name with
    | none => simp
    | some a =>
      -- Elsewhere than at the site, no parameter is a target and none is written.
      by_cases hsite : id = site.group ∧ name = site.assignment
      · simp [hsite, site.mem_targets, PolicyAssignment.parameterValue?_filled]
      · have hother : (id, name, parameter) ∉ site.targets := fun hmem =>
          hsite ⟨(site.mem_targets.mp hmem).1, (site.mem_targets.mp hmem).2.1⟩
        simp [hsite, hother]

/-- To fill sites one after another writes the targets of all of them. -/
theorem fillSites_receives (v : Json) (sites : List DefaultSite) (r : Registry) :
    Receives v (sites.flatMap DefaultSite.targets) r (sites.foldl (fillSite v) r) := by
  induction sites generalizing r with
  | nil => exact .refl v r
  | cons site rest ih =>
    rw [List.flatMap_cons, List.foldl_cons]
    exact (fillSite_receives v r site).trans (ih (fillSite v r site))

/-- The number that a call gives is that of the targets of its sites. -/
theorem length_targets (sites : List DefaultSite) :
    sites.foldl (fun n site => n + site.parameters.size) 0 =
      (sites.flatMap DefaultSite.targets).length := by
  -- The sum starts at zero, but it is from any start that it grows by the targets.
  suffices hsum : ∀ n : Nat, sites.foldl (fun n site => n + site.parameters.size) n =
      n + (sites.flatMap DefaultSite.targets).length by
    simpa using hsum 0
  induction sites with
  | nil => simp
  | cons site rest ih =>
    intro n
    have hsite : site.targets.length = site.parameters.size := List.length_map _
    rw [List.foldl_cons, ih, List.flatMap_cons, List.length_append, hsite]
    omega

end Hierarchy

/-! ### The targets of a default -/

namespace DefaultMapping

variable {m : DefaultMapping} {r : Registry}

/-- The parameters that the default reaches, each with its group and its assignment. -/
def targets (m : DefaultMapping) (r : Registry) : List (String × String × String) :=
  (m.sites r).flatMap DefaultSite.targets

/-- The sites at a group belong to the entries of the default whose assignments it holds. -/
theorem mem_sitesAt {g : Group} {site : DefaultSite} :
    site ∈ m.sitesAt g ↔ ∃ e ∈ m.assignments.entries,
      g.policyAssignments.contains e.1 = true ∧ site = ⟨g.id, e.1, e.2⟩ := by
  simp only [sitesAt, List.mem_filterMap, Group.defaultSite?, Option.map_eq_some_iff,
    OrderedMap.contains_eq_true]
  constructor
  · rintro ⟨e, he, a, ha, rfl⟩
    exact ⟨e, he, ⟨a, ha⟩, rfl⟩
  · rintro ⟨e, he, ⟨a, ha⟩, rfl⟩
    exact ⟨e, he, a, ha, rfl⟩

/-- What a default reaches is at a group with the assignment, and in an entry of the default. -/
theorem reaches_iff {id name parameter : String} :
    m.reaches r id name parameter = true ↔
      ∃ g a parameters, r.get? id = some g ∧ g.policyAssignments.get? name = some a ∧
        (name, parameters) ∈ m.assignments.entries ∧ parameter ∈ parameters.toList := by
  simp only [reaches, Registry.assignment?, Bool.and_eq_true, Option.isSome_iff_exists,
    Option.bind_eq_some_iff, Option.any_eq_true, OrderedMap.get?_eq_some_iff,
    OrderedSet.contains_iff_mem]
  constructor
  · rintro ⟨⟨a, g, hg, ha⟩, parameters, he, hparameter⟩
    exact ⟨g, a, parameters, hg, ha, he, hparameter⟩
  · rintro ⟨g, a, parameters, hg, ha, he, hparameter⟩
    exact ⟨⟨a, g, hg, ha⟩, parameters, he, hparameter⟩

/-- The targets are just what the default reaches. -/
theorem mem_targets (hlinked : r.Linked) {id name parameter : String} :
    (id, name, parameter) ∈ m.targets r ↔ m.reaches r id name parameter = true := by
  rw [reaches_iff, targets, List.mem_flatMap]
  simp only [sites, List.mem_flatten, List.mem_map]
  constructor
  · rintro ⟨site, ⟨_, ⟨g, hg, rfl⟩, hsite⟩, htarget⟩
    obtain ⟨⟨name', parameters⟩, he, hheld, rfl⟩ := mem_sitesAt.mp hsite
    obtain ⟨rfl, rfl, hparameter⟩ := DefaultSite.mem_targets.mp htarget
    obtain ⟨id, hid⟩ := OrderedMap.mem_values.mp hg
    obtain ⟨a, ha⟩ := OrderedMap.contains_eq_true.mp hheld
    -- The site has the id of the group, which is the one that the group is registered under.
    obtain rfl := hlinked.id_eq hid
    exact ⟨g, a, parameters, hid, ha, he, hparameter⟩
  · rintro ⟨g, a, parameters, hid, ha, he, hparameter⟩
    obtain rfl := hlinked.id_eq hid
    have hsite : ⟨g.id, name, parameters⟩ ∈ m.sitesAt g :=
      mem_sitesAt.mpr ⟨(name, parameters), he, OrderedMap.contains_eq_true.mpr ⟨a, ha⟩, rfl⟩
    exact ⟨_, ⟨_, ⟨g, OrderedMap.mem_values.mpr ⟨_, hid⟩, rfl⟩, hsite⟩,
      DefaultSite.mem_targets.mpr ⟨rfl, rfl, hparameter⟩⟩

/-- No two sites have the same group and the same assignment. -/
theorem pairwise_sites (hlinked : r.Linked) :
    (m.sites r).Pairwise fun s t => s.group ≠ t.group ∨ s.assignment ≠ t.assignment := by
  refine List.pairwise_flatten.mpr ⟨?_, ?_⟩
  · -- At one group, the entries of the default are of different assignments.
    intro l hl
    obtain ⟨g, -, rfl⟩ := List.mem_map.mp hl
    refine List.pairwise_filterMap.mpr (m.assignments.ascending.imp fun {e e'} hlt s hs t ht => ?_)
    obtain ⟨-, -, rfl⟩ := Option.map_eq_some_iff.mp hs
    obtain ⟨-, -, rfl⟩ := Option.map_eq_some_iff.mp ht
    right
    rintro (heq : e.1 = e'.1)
    simp [heq] at hlt
  · -- The groups have different ids, since they are registered under them.
    refine List.pairwise_map.mpr (List.pairwise_map.mpr (r.ascending.imp_of_mem ?_))
    intro e e' he he' hlt s hs t ht
    obtain ⟨_, -, -, rfl⟩ := mem_sitesAt.mp hs
    obtain ⟨_, -, -, rfl⟩ := mem_sitesAt.mp ht
    left
    show e.2.id ≠ e'.2.id
    rw [hlinked.id_eq (OrderedMap.get?_eq_some_iff.mpr he),
      hlinked.id_eq (OrderedMap.get?_eq_some_iff.mpr he')]
    intro heq
    simp [heq] at hlt

/-- No target is listed twice. -/
theorem nodup_targets (hlinked : r.Linked) : (m.targets r).Nodup := by
  refine List.nodup_flatMap.mpr ⟨?_, (pairwise_sites hlinked).imp ?_⟩
  · intro site _
    refine site.parameters.nodup_toList.map fun parameter parameter' heq => ?_
    exact (Prod.mk.inj (Prod.mk.inj heq).2).2
  · rintro s t hne ⟨id, name, parameter⟩ hs ht
    obtain ⟨hgroup, hassignment, -⟩ := DefaultSite.mem_targets.mp hs
    obtain ⟨hgroup', hassignment', -⟩ := DefaultSite.mem_targets.mp ht
    exact hne.elim (fun h => h (hgroup.symm.trans hgroup'))
      fun h => h (hassignment.symm.trans hassignment')

end DefaultMapping

/-! ### The call -/

/-- The hierarchy `h'` is `h` with the value `v` written into the parameters that the default
reaches, which are the targets.

- `nodup` and `reached`: each parameter of a copy on a group that the default reaches is listed
  once as a target, and nothing else is;
- `declared`: what the copy refers to declares the parameter, in the version that the copy pins;
- `receives`: each target has the value, and nothing else in the groups is different. -/
structure Hierarchy.DefaultWritten (src : AssetSource σ) (m : DefaultMapping) (v : Json)
    (targets : List (String × String × String)) (h h' : Hierarchy) : Prop where
  nodup : targets.Nodup
  reached : ∀ id name parameter,
    (id, name, parameter) ∈ targets ↔ m.reaches h.groups id name parameter = true
  declared : ∀ id name parameter, (id, name, parameter) ∈ targets →
    ∃ a, h.groups.assignment? id name = some a ∧ a.Declares src parameter
  receives : h.groups.Receives v targets h'.groups
  uniqueRoles : h'.uniqueRoles = h.uniqueRoles

/-- How a call that applies a default to `h` may end.

- `error`: it fails, at whatever point, and leaves the hierarchy as it was;
- `ok`: it gives the number of the targets of a mapping that the source gave, and has written all of
  them. -/
structure Hierarchy.DefaultEnds (src : AssetSource σ) (name : String) (v : Json) (h : Hierarchy)
    (ended : Except HierarchyError Nat × Hierarchy) : Prop where
  error : ∀ e, ended.1 = .error e → ended.2 = h
  ok : ∀ k, ended.1 = .ok k → ∃ m targets, (src.defaultMapping name).Answers m ∧
    h.DefaultWritten src m v targets ended.2 ∧ k = targets.length

namespace Hierarchy

/-- The sites of a default that passed their checks are written as a whole. -/
theorem defaultWritten_sites {h : Hierarchy} (hlinked : h.groups.Linked) {m : DefaultMapping}
    (hdeclared : ∀ g ∈ h.groups.values, ∀ e ∈ m.assignments.entries, g.DeclaresEntry src e)
    (v : Json) :
    DefaultWritten src m v (m.targets h.groups) h
      { h with groups := (m.sites h.groups).foldl (fillSite v) h.groups } where
  nodup := DefaultMapping.nodup_targets hlinked
  reached _ _ _ := DefaultMapping.mem_targets hlinked
  declared id name parameter htarget := by
    -- A target is a parameter of an entry, and all entries at the group passed their check.
    obtain ⟨g, a, parameters, hg, ha, he, hparameter⟩ :=
      DefaultMapping.reaches_iff.mp ((DefaultMapping.mem_targets hlinked).mp htarget)
    refine ⟨a, Option.bind_eq_some_iff.mpr ⟨g, hg, ha⟩, ?_⟩
    exact hdeclared g (OrderedMap.mem_values.mpr ⟨id, hg⟩) _ he a ha parameter hparameter
  receives := fillSites_receives v (m.sites h.groups) h.groups
  uniqueRoles := rfl

/-- A default changes nothing, or all sites of the mapping passed their checks and were filled. -/
theorem applyDefault_cases (src : AssetSource σ) (h : Hierarchy) (name : String) (v : Json)
    (s : σ) :
    (∃ e, (applyDefault src h name v s).1 = (.error e, h)) ∨
      ∃ m, (src.defaultMapping name).Answers m ∧
        (∀ g ∈ h.groups.values, ∀ e ∈ m.assignments.entries, g.DeclaresEntry src e) ∧
        (applyDefault src h name v s).1 = (.ok (m.targets h.groups).length,
          { h with groups := (m.sites h.groups).foldl (fillSite v) h.groups }) := by
  rw [applyDefault_run]
  -- All sites are found before anything is written, so a failure leaves the hierarchy.
  rcases hrun : (Query.allDefaultSites src h.groups name).run s with ⟨e | sites, s'⟩
  · exact Or.inl ⟨e, rfl⟩
  · obtain ⟨⟨m, hm, rfl, hdeclared⟩, -⟩ :=
      (Query.allDefaultSites_eq src h.groups name).of_ok trivial hrun
    refine Or.inr ⟨m, hm, hdeclared, ?_⟩
    dsimp only
    rw [length_targets]
    rfl

end Hierarchy

namespace History

/-- After every run over any source, and wherever the signal to stop comes, a named default is
written as a whole or not at all. -/
theorem applyDefault_whole (src : AssetSource σ) (uniqueRoles : Bool) (calls : List (σ × Call))
    (name : String) (v : Json) (s : σ) :
    (after src uniqueRoles calls).hierarchy.DefaultEnds src name v
      ((after src uniqueRoles calls).hierarchy.applyDefault src name v s).1 := by
  have hlinked := linked_after src uniqueRoles calls
  generalize (after src uniqueRoles calls).hierarchy = h at hlinked
  -- The call either fails and writes nothing, or writes all that the default reaches.
  obtain ⟨e, he⟩ | ⟨m, hm, hdeclared, hwritten⟩ := h.applyDefault_cases src name v s
  · rw [he]
    exact ⟨fun _ _ => rfl, nofun⟩
  · rw [hwritten]
    refine ⟨nofun, ?_⟩
    rintro k ⟨⟩
    exact ⟨m, m.targets h.groups, hm, Hierarchy.defaultWritten_sites hlinked hdeclared v, rfl⟩

end History

namespace Sample

/-- The policy definition `audit` with two parameters. -/
def audited : PolicyDefinition :=
  { audit with properties := { audit.properties with
      parameters := .ofList [("from", ⟨"String", none, none, none⟩),
        ("to", ⟨"String", none, none, none⟩)] } }

/-- A catalog with a default for both parameters, and for an assignment that no group has. -/
def defaultCatalog : Catalog :=
  { catalog with
    policyDefinitions := .ofList [("audit", Versions.empty.insert none audited)]
    defaults := .ofList [("span", ⟨"span", none, .ofList [
      ("assign-audit", .ofList ["from", "to"]), ("elsewhere", .ofList ["from"])]⟩)] }

/-- A root with the assignment. -/
def auditedRoot : List (Bool × Call) :=
  [(false, .add ⟨"root", "Root", .external "tenant", "westeurope", false, ["user"]⟩)]

end Sample

/-- The default is written into the two parameters on the root. -/
theorem History.applyDefault_whole_auditedRoot :
    ((after Sample.defaultCatalog.source false Sample.auditedRoot).hierarchy.applyDefault
      Sample.defaultCatalog.source "span" .null false).1.1 = .ok 2 ∧
    ∃ m targets, (Sample.defaultCatalog.source.defaultMapping "span").Answers m ∧
      (after Sample.defaultCatalog.source false Sample.auditedRoot).hierarchy.DefaultWritten
        Sample.defaultCatalog.source m .null targets
        ((after Sample.defaultCatalog.source false Sample.auditedRoot).hierarchy.applyDefault
          Sample.defaultCatalog.source "span" .null false).1.2 ∧
      2 = targets.length := by
  have htwo : ((after Sample.defaultCatalog.source false Sample.auditedRoot).hierarchy.applyDefault
      Sample.defaultCatalog.source "span" .null false).1.1.toOption = some 2 := by
    decide +kernel
  have hok := ok_of_toOption htwo
  have hends :=
    applyDefault_whole Sample.defaultCatalog.source false Sample.auditedRoot "span" .null false
  exact ⟨hok, hends.ok 2 hok⟩

end Governance
