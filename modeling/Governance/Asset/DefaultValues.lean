import Governance.Json.Record

/-!
# Named defaults

A named default says which parameters of which assignments receive one common value. A file may
declare several; the targets of one default that name the same assignment are put together.
-/

set_option autoImplicit false

namespace Governance

open Json

/-- The parameters of one assignment that a default reaches. -/
structure DefaultTarget where
  assignment : String
  parameters : OrderedSet String
  deriving DecidableEq

/-- A default as a file declares it. -/
structure DefaultEntry where
  name : String
  description : Option String
  targets : List DefaultTarget
  deriving DecidableEq

/-- A file of defaults. -/
structure DefaultValueFile where
  defaults : List DefaultEntry
  deriving DecidableEq

/-- A named default: the parameters that it reaches, by assignment. -/
structure DefaultMapping where
  name : String
  description : Option String
  assignments : OrderedMap String (OrderedSet String)
  deriving DecidableEq

namespace DefaultTarget

variable {δ : Type} [Source δ]

/-- The names of the fields. -/
def fieldNames : List String := ["policy_assignment_name", "parameter_names"]

/-- Reads a target. -/
def decode (d : δ) : Option DefaultTarget := do
  let fs ← readFields fieldNames d
  return {
    assignment := ← fs.required "policy_assignment_name" readText
    parameters := ← fs.required "parameter_names" readTextSet }

/-- Writes a target. -/
def encode (t : DefaultTarget) : Json := record [
  ("policy_assignment_name", some (.string t.assignment)),
  ("parameter_names", some (ofTextSet t.parameters))]

end DefaultTarget

namespace DefaultEntry

variable {δ : Type} [Source δ]

/-- The names of the fields. -/
def fieldNames : List String := ["default_name", "description", "policy_assignments"]

/-- Reads a default. -/
def decode (d : δ) : Option DefaultEntry := do
  let fs ← readFields fieldNames d
  return {
    name := ← fs.required "default_name" readText
    description := ← fs.optional "description" readText
    targets := ← fs.required "policy_assignments" (readList DefaultTarget.decode) }

/-- Writes a default. -/
def encode (e : DefaultEntry) : Json := record [
  ("default_name", some (.string e.name)),
  ("description", some (ofText? e.description)),
  ("policy_assignments", some (Json.ofList DefaultTarget.encode e.targets))]

/-- The parameters that targets reach, by assignment. -/
def gather (targets : List DefaultTarget) : OrderedMap String (OrderedSet String) :=
  targets.foldl
    (fun m t => m.insert t.assignment (((m.get? t.assignment).getD {}).union t.parameters)) {}

/-- The named default that an entry declares. -/
def mapping (e : DefaultEntry) : DefaultMapping := ⟨e.name, e.description, gather e.targets⟩

end DefaultEntry

namespace DefaultValueFile

variable {δ : Type} [Source δ]

/-- Reads a file. -/
def decode (d : δ) : Option DefaultValueFile := do
  let fs ← readFields ["defaults"] d
  return { defaults := ← fs.required "defaults" (readList DefaultEntry.decode) }

/-- Writes a file. -/
def encode (f : DefaultValueFile) : Json :=
  record [("defaults", some (Json.ofList DefaultEntry.encode f.defaults))]

/-- The named defaults that the file declares. -/
def mappings (f : DefaultValueFile) : List DefaultMapping := f.defaults.map DefaultEntry.mapping

end DefaultValueFile

/-- Writes a named default. -/
def DefaultMapping.encode (m : DefaultMapping) : Json := record [
  ("name", some (.string m.name)),
  ("description", some (ofText? m.description)),
  ("assignments", some (ofMap ofTextSet m.assignments))]

end Governance
