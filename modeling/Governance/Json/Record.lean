import Governance.Json.Source
import Governance.Order.Set

/-!
# Records in JSON

A record is read from an object or from the array of its fields in their order. In an object, fields
that the record does not have are passed over and a field of the record must not be repeated; an
array must not have more items than the record has fields. A record is written as an object with its
fields in their order, without those that are left out.

* `lookup_record`: what a written record shows under a name.
-/

set_option autoImplicit false

namespace Governance.Json

variable {δ α : Type} [Source δ]

/-! ### Reading single values -/

/-- Reads a text. -/
def readText (d : δ) : Option String :=
  match Source.layer d with
  | some (.string s) => some s
  | _ => none

/-- Reads a truth value. -/
def readBool (d : δ) : Option Bool :=
  match Source.layer d with
  | some (.bool b) => some b
  | _ => none

/-- Reads a whole number of 32 bits without a sign. -/
def readUnsigned32 (d : δ) : Option Nat :=
  match Source.layer d with
  | some (.number n) => n.toUnsigned?.filter (· < 1 <<< 32)
  | _ => none

/-- Reads a value of any kind. -/
def readAny (d : δ) : Option Json := Source.value d

/-- Reads null as `none`, and anything else by `f`. -/
def readOptional (f : δ → Option α) (d : δ) : Option (Option α) :=
  match Source.layer d with
  | some .null => some none
  | _ => (f d).map some

/-- Reads an array. -/
def readList (f : δ → Option α) (d : δ) : Option (List α) :=
  match Source.layer d with
  | some (.array items) => items.mapM f
  | _ => none

/-- Reads an array of texts as a set. -/
def readTextSet (d : δ) : Option (OrderedSet String) := (readList readText d).map OrderedSet.ofList

/-- Reads the members of an object by `f`. -/
def readMembers (f : δ → Option α) (members : List (String × δ)) : Option (List (String × α)) :=
  members.mapM fun m => (f m.2).map (m.1, ·)

/-- Reads an object as a map; of several members with one name the last stays. -/
def readMap (f : δ → Option α) (d : δ) : Option (OrderedMap String α) :=
  match Source.layer d with
  | some (.object members) => (readMembers f members).map OrderedMap.ofList
  | _ => none

/-- Reads one of several names, which may also stand as the only member of an object, with null. -/
def readChoice (choices : List (String × α)) (d : δ) : Option α :=
  match Source.layer d with
  | some (.string name) => choices.lookup name
  | some (.object [(name, d)]) =>
    match Source.layer d with
    | some .null => choices.lookup name
    | _ => none
  | _ => none

/-! ### Reading records -/

/-- The fields of a record that are there. -/
abbrev Fields (δ : Type) := List (String × δ)

/-- Whether no field of a record occurs twice among members. -/
def noneRepeated (names : List String) (members : List (String × δ)) : Bool :=
  names.all fun name => members.countP (fun m => m.1 == name) ≤ 1

/-- The fields of a record with the given field names. -/
def readFields (names : List String) (d : δ) : Option (Fields δ) :=
  match Source.layer d with
  | some (.object members) => if noneRepeated names members then some members else none
  | some (.array items) => if items.length ≤ names.length then some (names.zip items) else none
  | _ => none

/-- A field that must be there. -/
def Fields.required (fs : Fields δ) (name : String) (f : δ → Option α) : Option α :=
  (fs.lookup name).bind f

/-- A field that may be missing or null. -/
def Fields.optional (fs : Fields δ) (name : String) (f : δ → Option α) : Option (Option α) :=
  match fs.lookup name with
  | none => some none
  | some d => readOptional f d

/-- A field with a value that it has where it is missing. -/
def Fields.withDefault (fs : Fields δ) (name : String) (missing : α) (f : δ → Option α) :
    Option α :=
  match fs.lookup name with
  | none => some missing
  | some d => f d

/-! ### Writing records -/

/-- An object of the fields that are there. -/
def record (fields : List (String × Option Json)) : Json :=
  .object (fields.filterMap fun f => f.2.map (f.1, ·))

/-- A list as an array. -/
def ofList (f : α → Json) (items : List α) : Json := .array (items.map f)

/-- A set of texts as an array. -/
def ofTextSet (s : OrderedSet String) : Json := ofTexts s.toList

/-- A field that is left out where the list is empty. -/
def unlessEmpty (f : α → Json) (items : List α) : Option Json :=
  if items.isEmpty then none else some (ofList f items)

/-- A field that is left out where the map is empty. -/
def unlessEmptyMap (f : α → Json) (m : OrderedMap String α) : Option Json :=
  if m.isEmpty then none else some (ofMap f m)

/-- A name that no field has finds nothing. -/
theorem lookup_record_of_notMem {fields : List (String × Option Json)} {name : String}
    (h : name ∉ fields.map Prod.fst) :
    (fields.filterMap fun f => f.2.map (f.1, ·)).lookup name = none := by
  induction fields with
  | nil => rfl
  | cons field rest ih =>
    obtain ⟨other, v⟩ := field
    simp only [List.map_cons, List.mem_cons, not_or] at h
    cases v with
    | none => simpa using ih h.2
    | some v =>
      have hne : (name == other) = false := by simpa using h.1
      simpa [List.lookup_cons, hne] using ih h.2

/-- Among fields of different names, a name finds what was written under it. -/
theorem lookup_record {fields : List (String × Option Json)} (h : (fields.map Prod.fst).Nodup)
    {name : String} {v : Option Json} (hmem : (name, v) ∈ fields) :
    (fields.filterMap fun f => f.2.map (f.1, ·)).lookup name = v := by
  induction fields with
  | nil => cases hmem
  | cons field rest ih =>
    obtain ⟨other, w⟩ := field
    obtain ⟨hother, hrest⟩ := List.nodup_cons.mp h
    rcases List.mem_cons.mp hmem with hfirst | htail
    · cases hfirst
      cases v with
      | some v => simp
      | none =>
        -- The field is left out, and no later field has its name.
        simpa using lookup_record_of_notMem hother
    · have hne : name ≠ other := by
        rintro rfl
        exact hother (List.mem_map.mpr ⟨(name, v), htail, rfl⟩)
      have hbeq : (name == other) = false := by simpa using hne
      cases w with
      | none => simpa using ih hrest htail
      | some w => simpa [List.lookup_cons, hbeq] using ih hrest htail

end Governance.Json
