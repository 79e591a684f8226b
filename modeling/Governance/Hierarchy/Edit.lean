import Governance.Hierarchy.Growth

/-!
# Editing assignments

A named default is written into all parameters that it reaches, or into none: every parameter must
be declared by what the assignment refers to. One assignment of a group is modified likewise;
parameters are merged into those that it has, other parts replaced.
-/

set_option autoImplicit false

namespace Governance

/-- The parts of an assignment to be replaced, and the parameters to be set. -/
structure AssignmentChange where
  parameters : OrderedMap String Json
  enforcementMode : Option EnforcementMode
  notScopes : Option (List String)
  nonComplianceMessages : Option (List NonComplianceMessage)
  identity : Option AssignmentIdentity

namespace PolicyAssignment

/-- The assignment with a parameter set. -/
def setParameter (a : PolicyAssignment) (name : String) (v : Json) : PolicyAssignment :=
  { a with properties := { a.properties with
      parameters := a.properties.parameters.insert name v } }

/-- The assignment with a change made. -/
def change (a : PolicyAssignment) (c : AssignmentChange) : PolicyAssignment :=
  { a with
    identity := c.identity <|> a.identity
    properties := { a.properties with
      parameters := a.properties.parameters.override c.parameters
      enforcementMode := c.enforcementMode <|> a.properties.enforcementMode
      notScopes := c.notScopes.getD a.properties.notScopes
      nonComplianceMessages :=
        c.nonComplianceMessages.getD a.properties.nonComplianceMessages } }

end PolicyAssignment

/-- The group with one of its assignments changed. -/
def Group.modifyAssignment (g : Group) (name : String)
    (f : PolicyAssignment → PolicyAssignment) : Group :=
  { g with policyAssignments := g.policyAssignments.modify name f }

/-- Parameters of an assignment of a group that a default reaches. -/
structure DefaultSite where
  group : String
  assignment : String
  parameters : OrderedSet String

namespace Query

variable {σ : Type}

/-- Checks that what an assignment refers to declares parameters. -/
def checkDeclared (src : AssetSource σ) (group name : String) (a : PolicyAssignment)
    (parameters : List String) : Query σ Unit := do
  let (definitionName, declaredParameters) ← declared src group a
  match parameters.find? fun p => !declaredParameters.contains p with
  | some p => throw (.unknownAssignmentParameter group name p definitionName)
  | none => pure ()

/-- The site of a default at an assignment, if the group holds it. -/
def defaultSite (src : AssetSource σ) (g : Group) (e : String × OrderedSet String) :
    Query σ (Option DefaultSite) :=
  match g.policyAssignments.get? e.1 with
  | none => pure none
  | some a => do
    checkDeclared src g.id e.1 a e.2.toList
    return some ⟨g.id, e.1, e.2⟩

/-- The sites of a default at a group. -/
def defaultSites (src : AssetSource σ) (m : DefaultMapping) (g : Group) :
    Query σ (List DefaultSite) := do
  checkStopped src
  return (← m.assignments.entries.mapM (defaultSite src g)).filterMap id

/-- The sites of a named default at all groups. -/
def allDefaultSites (src : AssetSource σ) (r : Registry) (name : String) :
    Query σ (List DefaultSite) := do
  let m ← require (.defaultValueNotFound name) (src.defaultMapping name)
  return (← r.values.mapM (defaultSites src m)).flatten

end Query

namespace Hierarchy

variable {σ : Type}

/-- Writes a value into the parameters of a site. -/
def fillSite (v : Json) (r : Registry) (site : DefaultSite) : Registry :=
  r.modify site.group fun g => g.modifyAssignment site.assignment fun a =>
    site.parameters.toList.foldl (fun a p => a.setParameter p v) a

/-- Writes a value into all parameters that a named default reaches; gives their number. -/
def applyDefault (src : AssetSource σ) (h : Hierarchy) (name : String) (v : Json) :
    StateM σ (Except HierarchyError Nat × Hierarchy) := do
  match ← (Query.allDefaultSites src h.groups name).run with
  | .error e => return (.error e, h)
  | .ok sites =>
    return (.ok (sites.foldl (fun n site => n + site.parameters.size) 0),
      { h with groups := sites.foldl (fillSite v) h.groups })

/-- The copy of an assignment that a group holds. -/
def assignmentCopy? (r : Registry) (group name : String) :
    Except HierarchyError PolicyAssignment :=
  match r.get? group with
  | none => .error (.managementGroupNotFound group)
  | some g =>
    match g.policyAssignments.get? name with
    | none => .error (.policyAssignmentNotFound group name)
    | some a => .ok a

/-- The changed copy of an assignment, if the change may be made. -/
def changed (src : AssetSource σ) (r : Registry) (group name : String) (c : AssignmentChange) :
    Query σ PolicyAssignment := do
  let a ← MonadExcept.ofExcept (assignmentCopy? r group name)
  if !c.parameters.isEmpty then Query.checkDeclared src group name a c.parameters.keys
  return a.change c

/-- Changes the copy of an assignment that a group holds. -/
def modifyAssignment (src : AssetSource σ) (h : Hierarchy) (group name : String)
    (c : AssignmentChange) : StateM σ (Except HierarchyError PolicyAssignment × Hierarchy) := do
  match ← (changed src h.groups group name c).run with
  | .error e => return (.error e, h)
  | .ok a =>
    return (.ok a,
      { h with groups := h.groups.modify group fun g => g.modifyAssignment name fun _ => a })

end Hierarchy

end Governance
