import Governance.Hierarchy.Deployment
import Governance.Proofs.Order.Map

/-!
# `Governance.Proofs.Hierarchy.Deployment`: what a deployed group holds

`Group.deploy` walks over the references of a group, the members of its set definitions
first and its assignments after them, and stops at the first one that fails.

* `Group.deploy_failure`: the failure is that of the first reference with a fault
  (`Group.references`, `DeploymentContext.fault`).
* `Group.deploy_eq_deployed`: without a failure, the group is `Group.deployed`, where each
  reference is pointed at its owner. This form has no context: it takes the owner of each
  definition as a function.
* `Group.get?_deploy_policyAssignments`: after a failure too, each assignment is as it was
  or as its change made it.

The suffix of a role name is given once (`Deployment.withSuffix_again`).

Deploying changes no link of a group and no name of a copy (`Group.shape_deploy`). The
`Shape` of a group has just this: its place in the tree and the names of its definitions.
-/

set_option autoImplicit false

namespace Governance

/-- A search in the parts of a list takes the first part where something is found. -/
theorem findSome?_flatMap {α β γ : Type} (f : β → Option γ) (g : α → List β)
    (l : List α) : (l.flatMap g).findSome? f = l.findSome? fun a => (g a).findSome? f := by
  induction l with
  | nil => rfl
  | cons a rest ih =>
    rw [List.flatMap_cons, List.findSome?_append, List.findSome?_cons, ih]
    cases (g a).findSome? f <;> rfl

/-! ### Suffixes -/

/-- A text finishes with another one that stands at its end. -/
theorem Text.finishesWith_iff {part s : String} :
    finishesWith part s = true ↔ ∃ front, s = front ++ part := by
  rw [finishesWith, List.isSuffixOf_iff_suffix]
  constructor
  · rintro ⟨front, hfront⟩
    exact ⟨String.ofList front, by rw [← String.toList_inj, ← hfront]; simp⟩
  · rintro ⟨front, rfl⟩
    exact ⟨front.toList, by simp⟩

namespace Deployment

/-- The suffix stands behind some text. -/
theorem exists_withSuffix (suffix s : String) : ∃ front, withSuffix suffix s = front ++ suffix := by
  unfold withSuffix
  split
  · exact Text.finishesWith_iff.mp ‹_›
  · exact ⟨s, rfl⟩

/-- A suffix that was given is there, so it is not given again. -/
@[simp] theorem withSuffix_again (suffix s : String) :
    withSuffix suffix (withSuffix suffix s) = withSuffix suffix s := by
  have hsuffix := Text.finishesWith_iff.mpr (exists_withSuffix suffix s)
  rw [withSuffix, if_pos hsuffix]

end Deployment

/-! ### References and their owners -/

/-- The identifier of a definition at the group that deploys it. -/
def ReferencedDefinition.idAt (owner : String) : ReferencedDefinition → String
  | .definition name => ResourceId.policyDefinition owner name
  | .setDefinition name => ResourceId.policySetDefinition owner name

/-- The text of a reference: the identifier at the owner, or what it was if there is none. -/
def ReferencedDefinition.pointer (t : ReferencedDefinition) (owner : Option String)
    (text : String) : String :=
  (owner.map t.idAt).getD text

/-- The place of a group in the tree, and the names of the definitions that it holds. -/
structure Shape where
  id : String
  level : Nat
  parent : Parent
  children : OrderedSet String
  definitions : List String
  setDefinitions : List String

/-- The shape of a group. -/
def Group.shape (g : Group) : Shape where
  id := g.id
  level := g.level
  parent := g.parent
  children := g.children
  definitions := g.policyDefinitions.keys
  setDefinitions := g.policySetDefinitions.keys

/-- The shapes of the groups of a registry. -/
def Registry.shape (r : Registry) : OrderedMap String Shape := r.map fun _ g => g.shape

/-- A reference from an asset of a group. -/
structure AssetReference where
  kind : AssetKind
  asset : String
  /-- How messages name the reference. -/
  label : String
  target : Except ReferenceError ReferencedDefinition

/-- The reference that a member of a set definition is. -/
def SetMember.reference (set : String) (m : SetMember) : AssetReference :=
  ⟨.policySetDefinition, set, m.label, m.definitionName.map .definition⟩

/-- The reference that an assignment is. -/
def PolicyAssignment.reference (name : String) (a : PolicyAssignment) : AssetReference :=
  ⟨.policyAssignment, name, a.properties.policyDefinitionId, a.referencedDefinition⟩

/-- The references of a group in the order in which they are pointed. -/
def Group.references (g : Group) : List AssetReference :=
  g.policySetDefinitions.entries.flatMap
      (fun e => e.2.properties.members.map (SetMember.reference e.1)) ++
    g.policyAssignments.entries.map fun e => e.2.reference e.1

/-- The members of set definitions are references of the group. -/
theorem Group.mem_references_of_member {g : Group} {set : String} {p : PolicySetDefinition}
    {m : SetMember} (hp : g.policySetDefinitions.get? set = some p)
    (hm : m ∈ p.properties.members) : m.reference set ∈ g.references :=
  List.mem_append_left _ (List.mem_flatMap.mpr
    ⟨(set, p), OrderedMap.get?_eq_some_iff.mp hp, List.mem_map_of_mem hm⟩)

/-- The assignments of a group are references of it. -/
theorem Group.mem_references_of_assignment {g : Group} {name : String} {a : PolicyAssignment}
    (ha : g.policyAssignments.get? name = some a) : a.reference name ∈ g.references :=
  List.mem_append_right _ (List.mem_map.mpr ⟨(name, a), OrderedMap.get?_eq_some_iff.mp ha, rfl⟩)

namespace DeploymentContext

/-- The groups that hold a copy of a definition, if any group does. -/
def owners? (ctx : DeploymentContext) : ReferencedDefinition → Option (OrderedSet String)
  | .definition name => ctx.definitionOwners.get? name
  | .setDefinition name => ctx.setDefinitionOwners.get? name

/-- The group that a reference from `group` is pointed at. -/
def owner? (ctx : DeploymentContext) (group : String) (t : ReferencedDefinition) :
    Option String :=
  (ctx.owners? t).bind (Deployment.nearestOwner group ctx.ancestors)

/-- What is wrong with a reference from `group`: it names no definition, or one that only
groups elsewhere hold. -/
def fault (ctx : DeploymentContext) (group : String) (ref : AssetReference) :
    Option HierarchyError :=
  match ref.target with
  | .error cause => some (.invalidReference group ref.kind ref.asset cause)
  | .ok t =>
    match ctx.owners? t with
    | none => none
    | some owners =>
      match Deployment.nearestOwner group ctx.ancestors owners with
      | none =>
        some (.unreachableDefinition group ref.kind ref.asset ref.label t.name owners.toList)
      | some _ => none

/-- A reference to a definition has a fault when the index lists the definition, and none of
its holders is near. -/
theorem fault_eq_some {ctx : DeploymentContext} {group : String}
    {ref : AssetReference} {t : ReferencedDefinition} {e : HierarchyError}
    (ht : ref.target = .ok t) (h : ctx.fault group ref = some e) :
    ∃ owners, ctx.owners? t = some owners ∧ ctx.owner? group t = none ∧
      e = .unreachableDefinition group ref.kind ref.asset ref.label t.name owners.toList := by
  unfold fault at h
  simp only [ht] at h
  split at h
  · simp at h
  · -- There are owners, and none of them is near, for otherwise there is no fault.
    rename_i owners howners
    split at h
    · rename_i hnear
      refine ⟨owners, howners, ?_, (Option.some.inj h).symm⟩
      rw [owner?, howners, Option.bind_some, hnear]
    · simp at h

/-- A reference without a fault names a definition. -/
theorem exists_target {ctx : DeploymentContext} {group : String}
    {ref : AssetReference} (h : ctx.fault group ref = none) : ∃ t, ref.target = .ok t := by
  unfold fault at h
  cases htarget : ref.target with
  | error cause => simp [htarget] at h
  | ok t => exact ⟨t, rfl⟩

end DeploymentContext

/-! ### One asset -/

/-- A member with its reference pointed at the owner that `owner?` gives. -/
def SetMember.deployed (owner? : ReferencedDefinition → Option String) (m : SetMember) :
    SetMember :=
  match m.definitionName with
  | .ok name =>
    let t := ReferencedDefinition.definition name
    { m with policyDefinitionId := t.pointer (owner? t) m.policyDefinitionId }
  | .error _ => m

/-- A set definition with the identifier of the group, its members pointed at their owners. -/
def PolicySetDefinition.deployed (owner? : ReferencedDefinition → Option String)
    (group name : String) (p : PolicySetDefinition) : PolicySetDefinition :=
  { p with
      id := some (ResourceId.policySetDefinition group name)
      properties := { p.properties with
        members := p.properties.members.map fun m => m.deployed owner? } }

/-- An assignment stamped for the group, its reference pointed at its owner. -/
def PolicyAssignment.deployed (owner? : ReferencedDefinition → Option String) (g : Group)
    (name : String) (a : PolicyAssignment) : PolicyAssignment :=
  match a.referencedDefinition with
  | .ok t =>
    Deployment.pointed (Deployment.stamped g name a)
      (t.pointer (owner? t) a.properties.policyDefinitionId)
  | .error _ => Deployment.stamped g name a

/-- A deployed member points at the definition of the owner, if there is one. -/
theorem SetMember.deployed_policyDefinitionId {owner? : ReferencedDefinition → Option String}
    {m : SetMember} {name : String} (h : m.definitionName = .ok name) :
    (m.deployed owner?).policyDefinitionId =
      (ReferencedDefinition.definition name).pointer (owner? (.definition name))
        m.policyDefinitionId := by
  rw [deployed, h]

/-- Pointing changes one text of a member. -/
theorem SetMember.deployed_parameters (owner? : ReferencedDefinition → Option String)
    (m : SetMember) : (m.deployed owner?).parameters = m.parameters := by
  unfold deployed
  split <;> rfl

/-- A deployed member keeps its pin. -/
theorem SetMember.deployed_definitionVersion (owner? : ReferencedDefinition → Option String)
    (m : SetMember) : (m.deployed owner?).definitionVersion = m.definitionVersion := by
  unfold deployed
  split <;> rfl

/-- A deployed assignment points at what the owner has, if there is one. -/
theorem PolicyAssignment.deployed_policyDefinitionId {owner? : ReferencedDefinition → Option String}
    {g : Group} {name : String} {a : PolicyAssignment} {t : ReferencedDefinition}
    (h : a.referencedDefinition = .ok t) :
    (a.deployed owner? g name).properties.policyDefinitionId =
      t.pointer (owner? t) a.properties.policyDefinitionId := by
  rw [deployed, h]
  rfl

/-- A deployed assignment keeps its pin. -/
theorem PolicyAssignment.deployed_definitionVersion
    (owner? : ReferencedDefinition → Option String) (g : Group) (name : String)
    (a : PolicyAssignment) :
    (a.deployed owner? g name).properties.definitionVersion = a.properties.definitionVersion := by
  unfold deployed
  split <;> rfl

namespace Deployment

/-- A member fails to deploy by the fault of its reference. -/
theorem member_failure (ctx : DeploymentContext) (group set : String) (m : SetMember) :
    (member ctx group set m).2 = ctx.fault group (m.reference set) := by
  unfold member DeploymentContext.fault SetMember.reference
  cases m.definitionName with
  | error cause => rfl
  | ok name =>
    simp only [Except.map, DeploymentContext.owners?, ReferencedDefinition.name]
    cases ctx.definitionOwners.get? name with
    | none => rfl
    | some owners => dsimp only; cases nearestOwner group ctx.ancestors owners <;> rfl

/-- A member that does not fail comes out as the deployed one. -/
theorem member_eq_deployed {ctx : DeploymentContext} {group set : String} {m : SetMember}
    (h : (member ctx group set m).2 = none) :
    (member ctx group set m).1 = m.deployed (ctx.owner? group) := by
  unfold member at h ⊢
  unfold SetMember.deployed DeploymentContext.owner? DeploymentContext.owners?
  -- The owner is looked for step by step on both sides. Only a missing near owner is a failure.
  cases hname : m.definitionName with
  | error cause => rfl
  | ok name =>
    simp only [hname] at h ⊢
    cases howners : ctx.definitionOwners.get? name with
    | none => rfl
    | some owners =>
      simp only [howners] at h ⊢
      cases hnear : nearestOwner group ctx.ancestors owners with
      | none => simp [hnear] at h
      | some owner => simp [hnear, ReferencedDefinition.pointer, ReferencedDefinition.idAt]

/-- The two kinds of definitions are pointed in one way. -/
theorem assignment_eq (ctx : DeploymentContext) (g : Group) (name : String)
    (a : PolicyAssignment) :
    assignment ctx g name a =
      match a.referencedDefinition with
      | .error cause =>
        (stamped g name a, some (.invalidReference g.id .policyAssignment name cause))
      | .ok t =>
        match ctx.owners? t with
        | none => (stamped g name a, none)
        | some owners =>
          match nearestOwner g.id ctx.ancestors owners with
          | none =>
            (stamped g name a, some (.unreachableDefinition g.id .policyAssignment name
              a.properties.policyDefinitionId t.name owners.toList))
          | some owner => (pointed (stamped g name a) (t.idAt owner), none) := by
  unfold assignment
  -- Stamping changes neither the reference nor the text that messages name it by.
  have hstamped : (stamped g name a).referencedDefinition = a.referencedDefinition := rfl
  dsimp only
  rw [hstamped]
  cases a.referencedDefinition with
  | error cause => rfl
  | ok t => cases t <;> rfl

/-- An assignment fails to deploy by the fault of its reference. -/
theorem assignment_failure (ctx : DeploymentContext) (g : Group) (name : String)
    (a : PolicyAssignment) : (assignment ctx g name a).2 = ctx.fault g.id (a.reference name) := by
  rw [assignment_eq]
  unfold DeploymentContext.fault PolicyAssignment.reference
  cases a.referencedDefinition with
  | error cause => rfl
  | ok t =>
    dsimp only
    cases ctx.owners? t with
    | none => rfl
    | some owners => dsimp only; cases nearestOwner g.id ctx.ancestors owners <;> rfl

/-- An assignment that does not fail comes out as the deployed one. -/
theorem assignment_eq_deployed {ctx : DeploymentContext} {g : Group} {name : String}
    {a : PolicyAssignment} (h : (assignment ctx g name a).2 = none) :
    (assignment ctx g name a).1 = a.deployed (ctx.owner? g.id) g name := by
  rw [assignment_eq] at h ⊢
  unfold PolicyAssignment.deployed DeploymentContext.owner?
  -- The steps are those of a member, with the target in place of the name.
  cases htarget : a.referencedDefinition with
  | error cause => rfl
  | ok t =>
    simp only [htarget] at h ⊢
    cases howners : ctx.owners? t with
    | none => rfl
    | some owners =>
      simp only [howners] at h ⊢
      cases hnear : nearestOwner g.id ctx.ancestors owners with
      | none => simp [hnear] at h
      | some owner => simp [hnear, ReferencedDefinition.pointer]

/-- The failure of a set definition is the first fault of its members. -/
theorem setDefinition_failure (ctx : DeploymentContext) (group name : String)
    (p : PolicySetDefinition) :
    (setDefinition ctx group name p).2 =
      (p.properties.members.map (SetMember.reference name)).findSome? (ctx.fault group) := by
  rw [List.findSome?_map]
  unfold setDefinition
  rw [OrderedMap.changeUntil_failure]
  exact congrArg (List.findSome? · _) (funext (member_failure ctx group name))

/-- A set definition whose members are all deployed is the deployed one. -/
theorem setDefinition_eq_deployed {ctx : DeploymentContext} {group name : String}
    {p : PolicySetDefinition} (h : (setDefinition ctx group name p).2 = none) :
    (setDefinition ctx group name p).1 = p.deployed (ctx.owner? group) group name := by
  obtain ⟨hmap, hall⟩ := OrderedMap.changeUntil_eq_map h
  have hmembers : p.properties.members.map (fun m => (member ctx group name m).1) =
      p.properties.members.map fun m => m.deployed (ctx.owner? group) :=
    List.map_congr_left fun m hm => member_eq_deployed (hall m hm)
  simp only [setDefinition, PolicySetDefinition.deployed, hmap, hmembers]

end Deployment

/-! ### The group -/

/-- The copy of a role definition at a group. -/
def RoleDefinition.deployed (uniqueRoles : Bool) (group name : String) (r : RoleDefinition) :
    RoleDefinition :=
  Deployment.role ⟨[], {}, {}, uniqueRoles⟩ group name r

/-- A group with its assets deployed, where `owner?` gives the owners of definitions. -/
def Group.deployed (owner? : ReferencedDefinition → Option String) (uniqueRoles : Bool)
    (g : Group) : Group :=
  { g with
    policyDefinitions := g.policyDefinitions.map (Deployment.definition g.id)
    policySetDefinitions := g.policySetDefinitions.map (PolicySetDefinition.deployed owner? g.id)
    policyAssignments := g.policyAssignments.map (PolicyAssignment.deployed owner? g)
    roleDefinitions := g.roleDefinitions.map (RoleDefinition.deployed uniqueRoles g.id) }

namespace Group

/-- The failure to deploy a group is that of its first reference with a fault. -/
theorem deploy_failure (g : Group) (ctx : DeploymentContext) :
    (g.deploy ctx).2 = g.references.findSome? (ctx.fault g.id) := by
  have hsets : (g.policySetDefinitions.mapUntil (Deployment.setDefinition ctx g.id)).2 =
      (g.policySetDefinitions.entries.flatMap fun e =>
        e.2.properties.members.map (SetMember.reference e.1)).findSome? (ctx.fault g.id) := by
    rw [OrderedMap.mapUntil_failure, findSome?_flatMap]
    exact congrArg (List.findSome? · _)
      (funext fun e => Deployment.setDefinition_failure ctx g.id e.1 e.2)
  -- The members are walked first, and the assignments only when no member fails.
  rw [references, List.findSome?_append, ← hsets, List.findSome?_map]
  unfold deploy
  dsimp only
  cases (g.policySetDefinitions.mapUntil (Deployment.setDefinition ctx g.id)).2 with
  | some e => rfl
  | none =>
    rw [Option.none_or, OrderedMap.mapUntil_failure]
    exact congrArg (List.findSome? · _)
      (funext fun e => Deployment.assignment_failure ctx g e.1 e.2)

/-- Without a failure, each reference of the group is pointed at its owner. -/
theorem deploy_eq_deployed {g : Group} {ctx : DeploymentContext} (h : (g.deploy ctx).2 = none) :
    (g.deploy ctx).1 = g.deployed (ctx.owner? g.id) ctx.uniqueRoles := by
  unfold deploy at h ⊢
  dsimp only at h ⊢
  cases hsets : (g.policySetDefinitions.mapUntil (Deployment.setDefinition ctx g.id)).2 with
  | some e => simp [hsets] at h
  | none =>
    simp only [hsets] at h ⊢
    -- Both walks met no failure, so each of them is a map.
    rw [OrderedMap.mapUntil_eq_map h, OrderedMap.mapUntil_eq_map hsets]
    unfold deployed
    congr 1
    · exact OrderedMap.map_congr fun name p hp =>
        Deployment.setDefinition_eq_deployed (OrderedMap.mapUntil_none hsets hp)
    · exact OrderedMap.map_congr fun name a ha =>
        Deployment.assignment_eq_deployed (OrderedMap.mapUntil_none h ha)

/-- Deploying keeps the place of the group and the names of its copies. -/
theorem shape_deploy (g : Group) (ctx : DeploymentContext) : (g.deploy ctx).1.shape = g.shape := by
  unfold deploy shape
  dsimp only
  have hsets := OrderedMap.keys_mapUntil g.policySetDefinitions (Deployment.setDefinition ctx g.id)
  split <;> simp only [OrderedMap.keys_map, hsets]

/-- Deployed or not, each assignment is as it was or as its change made it. -/
theorem get?_deploy_policyAssignments {g : Group} {ctx : DeploymentContext} {name : String}
    {a : PolicyAssignment} (h : (g.deploy ctx).1.policyAssignments.get? name = some a) :
    ∃ a₀, g.policyAssignments.get? name = some a₀ ∧
      (a = a₀ ∨ a = (Deployment.assignment ctx g name a₀).1) := by
  unfold deploy at h
  dsimp only at h
  split at h
  · exact ⟨a, h, Or.inl rfl⟩
  · exact OrderedMap.get?_mapUntil h

end Group

end Governance
