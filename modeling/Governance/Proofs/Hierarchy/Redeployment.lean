import Governance.Proofs.Hierarchy.Naming

/-!
# `Governance.Proofs.Hierarchy.Redeployment`: deploying a second time

Deploying reads the references of a group and writes others in their place. A second run reads what
the first one wrote, and the first one may have stopped anywhere. `Group.deploy_again` says that the
second run changes nothing, and that it ends as the first one did: with success, or with the same
failure at the same reference.

It is proved asset by asset. For a member and an assignment there are three cases. Either no group
holds the definition, or none of its holders is near, and then the text stays. Or the text becomes
the identifier at the nearest holder. That identifier is read as the definition that was read
before, when the ids of the group and of those above it are segments
(`DeploymentContext.SegmentIds`). The holder is then the same, and the same text is written again.
-/

set_option autoImplicit false

namespace Governance

open ResourceId

/-- The ids of a group and of the groups above it can stand in identifiers. -/
structure DeploymentContext.SegmentIds (ctx : DeploymentContext) (group : String) : Prop where
  group : IsSegment group
  ancestors : ∀ ancestor ∈ ctx.ancestors, IsSegment ancestor

namespace Deployment

variable {ctx : DeploymentContext} {group : String}

/-- The nearest owner is the group or one above it, so its id is a segment. -/
theorem isSegment_nearestOwner (hids : ctx.SegmentIds group) {owners : OrderedSet String}
    {owner : String} (h : nearestOwner group ctx.ancestors owners = some owner) :
    IsSegment owner := by
  obtain ⟨-, rfl | habove⟩ := nearestOwner_eq_some h
  · exact hids.group
  · exact hids.ancestors owner habove

/-! ### One asset -/

/-- A member is pointed once. -/
theorem member_again (hids : ctx.SegmentIds group) (set : String) (m : SetMember) :
    member ctx group set (member ctx group set m).1 = member ctx group set m := by
  cases hname : m.definitionName with
  | error cause => simp only [member, hname]
  | ok name =>
    cases howners : ctx.definitionOwners.get? name with
    | none => simp only [member, hname, howners]
    | some owners =>
      cases hnear : nearestOwner group ctx.ancestors owners with
      | none => simp only [member, hname, howners, hnear]
      | some owner =>
        let pointed : SetMember :=
          { m with policyDefinitionId := ResourceId.policyDefinition owner name }
        have hfirst : member ctx group set m = (pointed, none) := by
          simp only [member, hname, howners, hnear, pointed]
        -- The new text names the definition that the old one named.
        have hsegment : IsSegment name :=
          Reference.isSegment_target (Reference.target_of_definitionName hname)
        have hread : pointed.definitionName = .ok name :=
          ReferencedDefinition.definitionName_idAt hsegment
            (.of_isSegment (isSegment_nearestOwner hids hnear))
        rw [hfirst]
        simp only [member, hread, howners, hnear, pointed]

/-- The members of a set definition are pointed once. -/
theorem setDefinition_again (hids : ctx.SegmentIds group) (name : String)
    (p : PolicySetDefinition) :
    setDefinition ctx group name (setDefinition ctx group name p).1 =
      setDefinition ctx group name p := by
  have hmembers := OrderedMap.changeUntil_again (l := p.properties.members)
    fun m _ => member_again hids name m
  simp only [setDefinition, hmembers]

/-- A role gets its name and its suffix once. -/
theorem role_again (ctx : DeploymentContext) (group name : String) (r : RoleDefinition) :
    role ctx group name (role ctx group name r) = role ctx group name r := by
  unfold role
  cases ctx.uniqueRoles with
  | false => simp only [Bool.false_eq_true, if_false]
  | true => simp only [if_true, uniqueRole, withSuffix_again]

/-- An assignment that has its id and its location keeps them. -/
@[simp] theorem stamped_again (g : Group) (name : String) (a : PolicyAssignment) :
    stamped g name (stamped g name a) = stamped g name a := by
  unfold stamped
  cases a.location <;> rfl

/-- Of the group, an assignment is given the id and the location only. -/
theorem assignment_congr {g g' : Group} (hid : g'.id = g.id)
    (hlocation : g'.location = g.location) : assignment ctx g' = assignment ctx g := by
  funext name a
  simp only [assignment, stamped, Group.resourceId, hid, hlocation]

/-- An assignment is stamped and pointed once. -/
theorem assignment_again {g : Group} (hids : ctx.SegmentIds g.id) (name : String)
    (a : PolicyAssignment) :
    assignment ctx g name (assignment ctx g name a).1 = assignment ctx g name a := by
  -- Stamping changes neither what the assignment refers to nor the text that says so.
  have hstamped : assignment ctx g name (stamped g name a) = assignment ctx g name a := by
    rw [assignment_eq, assignment_eq, stamped_again]
    rfl
  rw [assignment_eq ctx g name a]
  cases htarget : a.referencedDefinition with
  | error cause => rw [hstamped, assignment_eq, htarget]
  | ok t =>
    cases howners : ctx.owners? t with
    | none => simp only [hstamped, assignment_eq ctx g name a, htarget, howners]
    | some owners =>
      cases hnear : nearestOwner g.id ctx.ancestors owners with
      | none => simp only [hstamped, assignment_eq ctx g name a, htarget, howners, hnear]
      | some owner =>
        have hread : (pointed (stamped g name a) (t.idAt owner)).referencedDefinition = .ok t :=
          t.target_idAt (Reference.isSegment_target htarget)
            (.of_isSegment (isSegment_nearestOwner hids hnear))
        -- Stamped once more and pointed at the same owner, the assignment is what it was made.
        have hpointed : pointed (stamped g name (pointed (stamped g name a) (t.idAt owner)))
            (t.idAt owner) = pointed (stamped g name a) (t.idAt owner) := by
          show pointed (stamped g name (stamped g name a)) (t.idAt owner) = _
          rw [stamped_again]
        simp only [assignment_eq, hread, howners, hnear, hpointed]

end Deployment

/-! ### The group -/

namespace Group

variable {g : Group} {ctx : DeploymentContext}

/-- A group whose members could not all be pointed: its roles and assignments stay. -/
theorem deploy_of_failure {e : HierarchyError}
    (h : (g.policySetDefinitions.mapUntil (Deployment.setDefinition ctx g.id)).2 = some e) :
    g.deploy ctx =
      ({ g with
          policyDefinitions := g.policyDefinitions.map (Deployment.definition g.id)
          policySetDefinitions :=
            (g.policySetDefinitions.mapUntil (Deployment.setDefinition ctx g.id)).1 }, some e) := by
  simp only [deploy, h]

/-- A group whose members could all be pointed. -/
theorem deploy_of_none
    (h : (g.policySetDefinitions.mapUntil (Deployment.setDefinition ctx g.id)).2 = none) :
    g.deploy ctx =
      ({ g with
          policyDefinitions := g.policyDefinitions.map (Deployment.definition g.id)
          policySetDefinitions :=
            (g.policySetDefinitions.mapUntil (Deployment.setDefinition ctx g.id)).1
          roleDefinitions := g.roleDefinitions.map (Deployment.role ctx g.id)
          policyAssignments := (g.policyAssignments.mapUntil (Deployment.assignment ctx g)).1 },
        (g.policyAssignments.mapUntil (Deployment.assignment ctx g)).2) := by
  simp only [deploy, h]
  rfl

/-- Take a group and the groups above it, with segments as ids. Deploying the group once more, in
the same context, leaves it as it is and ends as before, whether the first run failed or not. -/
theorem deploy_again (hid : IsSegment g.id) (hancestors : ∀ x ∈ ctx.ancestors, IsSegment x) :
    (g.deploy ctx).1.deploy ctx = g.deploy ctx := by
  have hids : ctx.SegmentIds g.id := ⟨hid, hancestors⟩
  have hdefinitions : (g.policyDefinitions.map (Deployment.definition g.id)).map
      (Deployment.definition g.id) = g.policyDefinitions.map (Deployment.definition g.id) :=
    OrderedMap.map_map ..
  have hroles : (g.roleDefinitions.map (Deployment.role ctx g.id)).map (Deployment.role ctx g.id) =
      g.roleDefinitions.map (Deployment.role ctx g.id) := by
    rw [OrderedMap.map_map]
    exact OrderedMap.map_congr fun name r _ => Deployment.role_again ctx g.id name r
  have hsets := OrderedMap.mapUntil_again (m := g.policySetDefinitions)
    fun name p _ => Deployment.setDefinition_again hids name p
  -- The first run changed other parts of the group than its id and its location.
  have hassignments : ∀ g' : Group, g'.id = g.id → g'.location = g.location →
      (g.policyAssignments.mapUntil (Deployment.assignment ctx g)).1.mapUntil
        (Deployment.assignment ctx g') =
      g.policyAssignments.mapUntil (Deployment.assignment ctx g) := by
    intro g' hid' hlocation
    rw [Deployment.assignment_congr hid' hlocation]
    exact OrderedMap.mapUntil_again fun name a _ => Deployment.assignment_again hids name a
  cases hfailure : (g.policySetDefinitions.mapUntil (Deployment.setDefinition ctx g.id)).2 with
  | some e =>
    -- The second walk over the members ends where the first one did.
    have hfailure' := (congrArg Prod.snd hsets).trans hfailure
    rw [deploy_of_failure hfailure, deploy_of_failure hfailure']
    simp only [hsets, hdefinitions]
  | none =>
    have hfailure' := (congrArg Prod.snd hsets).trans hfailure
    rw [deploy_of_none hfailure, deploy_of_none hfailure']
    simp only [hsets, hdefinitions, hroles, hassignments]

end Group

namespace Sample

/-- A group with copies of the set definition, of its assignment and of a role definition. -/
def carrier : Group :=
  Hierarchy.newGroup ⟨"leaf", "Leaf", .group "root", "westeurope", false, []⟩ 1
    { policyDefinitions := {}
      policySetDefinitions := .ofList [("suite", suite)]
      policyAssignments := .ofList [("assign-suite", suiteAssignment)]
      roleDefinitions := .ofList [("role", role "Operators")] }

/-- A root that holds the definition. The set definition is held by a group elsewhere only. -/
def scattered : DeploymentContext :=
  ⟨["root"], .ofList [("deploy", .ofList ["root"])], .ofList [("suite", .ofList ["left"])], true⟩

end Sample

/-- The members of the set definition can be pointed, and then the assignment cannot. -/
theorem Group.deploy_again_scattered :
    IsSegment Sample.carrier.id ∧ (∀ x ∈ Sample.scattered.ancestors, IsSegment x) ∧
    (Sample.carrier.deploy Sample.scattered).2.isSome = true ∧
    (Sample.carrier.deploy Sample.scattered).1.deploy Sample.scattered =
      Sample.carrier.deploy Sample.scattered := by
  have hid : IsSegment Sample.carrier.id := by decide
  have hancestors : ∀ x ∈ Sample.scattered.ancestors, IsSegment x := by decide
  have hfails : (Sample.carrier.deploy Sample.scattered).2.isSome = true := by decide +kernel
  exact ⟨hid, hancestors, hfails, deploy_again hid hancestors⟩

end Governance
