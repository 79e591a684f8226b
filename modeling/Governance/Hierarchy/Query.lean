import Governance.Catalog.Source
import Governance.Hierarchy.Error
import Governance.Hierarchy.Group

/-!
# Asking for assets

Operations on a hierarchy ask a source for assets. A query ends with an answer or an error, and
leaves the source in a new state either way. Queries only read the hierarchy; what follows from
their answers is worked out without the source.

* `ask_run`: what a look-up makes of the source's answer.
-/

set_option autoImplicit false

namespace Governance

/-- A computation that asks a source in state `σ`. -/
abbrev Query (σ : Type) := ExceptT HierarchyError (StateM σ)

namespace Query

variable {σ α : Type}

/-- Asks for an asset; a failure of the source is one of the query. -/
def ask (l : LookUp σ α) : Query σ (Option α) :=
  ExceptT.mk do
    match ← l with
    | .ok found => return .ok found
    | .error e => return .error (.catalog e)

/-- What a look-up makes of the source's answer. -/
theorem ask_run (l : LookUp σ α) (s : σ) :
    (ask l).run s =
      ((l s).1.mapError HierarchyError.catalog, (l s).2) := by
  simp only [ask, ExceptT.run_mk, bind, StateT.bind]
  rcases l s with ⟨answer, s'⟩
  cases answer <;> rfl

/-- The answer, which must not be missing. -/
def orFail (error : HierarchyError) : Option α → Query σ α
  | some a => pure a
  | none => throw error

/-- Asks for an asset that must be there. -/
def require (error : HierarchyError) (l : LookUp σ α) : Query σ α := do
  orFail error (← ask l)

/-- Asks for a policy definition on behalf of a group. -/
def definition (src : AssetSource σ) (group : String) (archetype : Option String) (name : String)
    (version : Option String) : Query σ PolicyDefinition :=
  require (.assetNotFound group .policyDefinition name archetype)
    (src.policyDefinition name version)

/-- Asks for a policy set definition on behalf of a group. -/
def setDefinition (src : AssetSource σ) (group : String) (archetype : Option String)
    (name : String) (version : Option String) : Query σ PolicySetDefinition :=
  require (.assetNotFound group .policySetDefinition name archetype)
    (src.policySetDefinition name version)

/-- What an assignment of a group refers to. -/
def target (group : String) (name : String) (a : PolicyAssignment) :
    Query σ ReferencedDefinition :=
  match a.referencedDefinition with
  | .ok definition => pure definition
  | .error cause => throw (.invalidReference group .policyAssignment name cause)

/-- The name of the definition that a member of a set refers to. -/
def memberName (group set : String) (m : SetMember) : Query σ String :=
  match m.definitionName with
  | .ok name => pure name
  | .error cause => throw (.invalidReference group .policySetDefinition set cause)

/-- The parameters of what an assignment of a group refers to, with its name. -/
def declared (src : AssetSource σ) (group : String) (a : PolicyAssignment) :
    Query σ (String × OrderedMap String ParameterDefinition) := do
  match ← target group a.name a with
  | .definition name => do
    let p ← definition src group none name a.properties.definitionVersion
    return (name, p.properties.parameters)
  | .setDefinition name => do
    let p ← setDefinition src group none name a.properties.definitionVersion
    return (name, p.properties.parameters)

/-- Fails where the caller has asked the work to stop. -/
def checkStopped (src : AssetSource σ) : Query σ Unit := do
  if src.stopped (← get) then throw .cancelled

end Query

end Governance
