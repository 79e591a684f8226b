import Governance.Text.Search

/-!
# Paths

A path is a text with a slash between its parts. Parts that are empty or a single point stay where
they are, two points go one directory up, and all others go down to a name.

* `resolve_append`: resolving a path part by part.
-/

set_option autoImplicit false

namespace Governance.Path

/-- Whether a path starts at the root. -/
def isAbsolute (p : String) : Bool := Text.beginsWith "/" p

/-- The path of something below a base; an absolute path stands for itself. -/
def join (base p : String) : String :=
  if isAbsolute p then p
  else if base.isEmpty || Text.finishesWith "/" base then base ++ p
  else base ++ "/" ++ p

/-- Whether a path is short enough to be used: it has at most 4095 bytes. -/
def fits (p : String) : Bool := p.utf8ByteSize ≤ 4095

/-- The parts of a path. -/
def parts (p : String) : List String := Text.splitAtChar '/' p

/-- Where a part of a path leads to. -/
inductive Step where
  | stay
  | up
  | down (name : String)
  deriving DecidableEq

/-- Where a part leads to. -/
def Step.ofPart (part : String) : Step :=
  if part = "" ∨ part = "." then .stay
  else if part = ".." then .up
  else .down part

/-- The steps of a path. -/
def steps (p : String) : List Step := (parts p).map Step.ofPart

/-- The names from the root down to a place. -/
abbrev Place := List String

/-- Takes a step. Above the root there is only the root. -/
def Step.apply (place : Place) : Step → Place
  | .stay => place
  | .up => place.dropLast
  | .down name => place ++ [name]

/-- Where steps lead to, whether or not there is anything. -/
def resolveSteps (place : Place) (steps : List Step) : Place := steps.foldl Step.apply place

/-- The place that a path starts from, for a program that stands at `current`. -/
def origin (current : Place) (p : String) : Place := if isAbsolute p then [] else current

/-- The place that a path names, for a program that stands at `current`. -/
def resolve (current : Place) (p : String) : Place := resolveSteps (origin current p) (steps p)

/-- Steps are taken one after another, so they can be taken in two parts. -/
theorem resolve_append (place : Place) (s t : List Step) :
    resolveSteps place (s ++ t) = resolveSteps (resolveSteps place s) t :=
  List.foldl_append

/-- Whether the last part of a path that is not empty is a single point. -/
def endsInPoint (p : String) : Bool := (parts p).reverse.find? (· != "") == some "."

/-- Drops the parts at the end that stay where they are; the parts stand backwards, and the first
part of a path is kept. -/
def dropStays : List String → List String
  | [] => []
  | [first] => [first]
  | part :: before => if part = "" ∨ part = "." then dropStays before else part :: before

/-- The path of the directory that holds what a path names. -/
def parent? (p : String) : Option String :=
  match dropStays (parts p).reverse with
  | [] => none
  | [first] => if first = "" then none else some ""
  | _ :: before =>
    match dropStays before with
    | [""] => some "/"
    | before => some ("/".intercalate before.reverse)

end Governance.Path
