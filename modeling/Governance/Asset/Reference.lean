import Governance.ResourceId

/-!
# References to definitions

Assignments and the members of set definitions name the definition that they mean by its identifier.
Only the type and the name in it count.

* `Reference.target_of_definitionName`: the two ways to read a reference agree on policy
  definitions.
-/

set_option autoImplicit false

namespace Governance

/-- Why an identifier refers to no definition. -/
inductive ReferenceError where
  | resourceId (e : ResourceIdError)
  | unexpectedType (id resourceType : String)
  deriving DecidableEq

/-- The message of an error. -/
def ReferenceError.message : ReferenceError → String
  | .resourceId e => e.message
  | .unexpectedType id resourceType =>
    s!"reference `{id}` has type `{resourceType}`, expected a policy or policy set definition"

/-- What an assignment refers to. -/
inductive ReferencedDefinition where
  | definition (name : String)
  | setDefinition (name : String)
  deriving DecidableEq

/-- The name of the definition. -/
def ReferencedDefinition.name : ReferencedDefinition → String
  | .definition name => name
  | .setDefinition name => name

namespace Reference

/-- The name of the policy definition that an identifier refers to. -/
def definitionName (text : String) : Except ReferenceError String :=
  match ResourceId.parse text with
  | .error e => .error (.resourceId e)
  | .ok id =>
    if id.isType ResourceType.policyDefinition then .ok id.name
    else .error (.unexpectedType text id.resourceType)

/-- The definition, of either kind, that an identifier refers to. -/
def target (text : String) : Except ReferenceError ReferencedDefinition :=
  match ResourceId.parse text with
  | .error e => .error (.resourceId e)
  | .ok id =>
    if id.isType ResourceType.policyDefinition then .ok (.definition id.name)
    else if id.isType ResourceType.policySetDefinition then .ok (.setDefinition id.name)
    else .error (.unexpectedType text id.resourceType)

/-- An identifier that refers to a policy definition refers to it by the same name in either way. -/
theorem target_of_definitionName {text name : String} (h : definitionName text = .ok name) :
    target text = .ok (.definition name) := by
  unfold definitionName at h
  unfold target
  grind

end Reference

end Governance
