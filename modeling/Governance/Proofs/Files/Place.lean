import Governance.Files.Disk
import Governance.Proofs.Text.Cells

/-!
# `Governance.Proofs.Files.Place`: the places that paths lead to

A path below a base leads from the place of the base on by its own steps (`resolve_join`), unless it
is absolute and stands for itself. If each of its parts leads down to a name, it ends at the place
of the base with these parts added (`resolve_join_of_descends`), so different paths of this kind end
at different places (`parts_injective`).

The place that a path resolves to is the place of the file that is written under this path
(`Disk.write_eq_ok`), so two paths name one file just when they resolve to one place.
-/

set_option autoImplicit false

namespace Governance

namespace Path

/-- Each part of the path leads down to a name: none is empty, a single point or two points. -/
def Descends (p : String) : Prop := ∀ part ∈ parts p, Step.ofPart part = .down part

instance (p : String) : Decidable (Descends p) :=
  inferInstanceAs (Decidable (∀ part ∈ parts p, Step.ofPart part = .down part))

/-- A path is known by its parts. -/
theorem parts_injective : Function.Injective parts := Text.splitAtChar_injective '/'

/-- A slash in the middle separates parts. -/
theorem parts_append (p q : String) : parts (p ++ "/" ++ q) = parts p ++ parts q :=
  Text.splitAtChar_append rfl p q

/-- The steps of two paths with a slash between them follow one another. -/
theorem steps_append (p q : String) : steps (p ++ "/" ++ q) = steps p ++ steps q := by
  rw [steps, parts_append, List.map_append]
  rfl

/-- Nothing stands behind a slash at the end. -/
theorem steps_slash (p : String) : steps (p ++ "/") = steps p ++ [.stay] := by
  rw [← String.append_empty (s := p ++ "/"), steps_append]
  rfl

/-- A text without a slash is one part. -/
theorem parts_of_notMem {p : String} (h : '/' ∉ p.toList) : parts p = [p] :=
  Text.splitAtChar_of_notMem h

/-- Whether a path is absolute is seen at its front. -/
theorem isAbsolute_append {p : String} (hp : p ≠ "") (q : String) :
    isAbsolute (p ++ q) = isAbsolute p := by
  obtain ⟨c, rest, hlist⟩ := List.exists_cons_of_ne_nil (mt String.toList_eq_nil_iff.mp hp)
  simp [isAbsolute, Text.beginsWith, String.toList_append, hlist, List.isPrefixOf]

/-- A path of which each part leads down is not absolute. -/
theorem Descends.isAbsolute {p : String} (h : Descends p) : isAbsolute p = false := by
  rw [← Bool.not_eq_true]
  intro habsolute
  obtain ⟨rest, hrest⟩ := List.isPrefixOf_iff_prefix.mp habsolute
  have hcells : Text.cells '/' p.toList = [] :: Text.cells '/' rest := by
    rw [← hrest]
    rfl
  have hempty : "" ∈ parts p := by
    rw [parts, Text.splitAtChar, hcells]
    exact List.mem_cons_self
  exact absurd (h "" hempty) (by decide)

/-- Steps that all lead down add their names. -/
theorem resolveSteps_down (place : Place) (names : List String) :
    resolveSteps place (names.map Step.down) = place ++ names := by
  induction names generalizing place with
  | nil => exact (List.append_nil place).symm
  | cons name rest ih =>
    change resolveSteps (place ++ [name]) (rest.map Step.down) = _
    rw [ih, List.append_assoc, List.singleton_append]

/-- Below a base a path leads on from where the base leads to. -/
theorem resolve_join (current : Place) (base : String) {p : String}
    (hp : isAbsolute p = false) :
    resolve current (join base p) = resolveSteps (resolve current base) (steps p) := by
  unfold join
  rw [if_neg (by simp [hp])]
  split
  next h =>
    by_cases hempty : base = ""
    · -- The empty base leads nowhere, and the path starts from where the program stands.
      subst hempty
      rw [String.empty_append, resolve, origin, hp]
      rfl
    · -- The slash at the end of the base separates the path from it.
      have hslash : Text.finishesWith "/" base = true := by simpa [hempty] using h
      obtain ⟨before, hbefore⟩ := List.isSuffixOf_iff_suffix.mp hslash
      obtain rfl : String.ofList before ++ "/" = base := by
        rw [← String.toList_inj, ← hbefore]
        simp [String.toList_append]
      rw [resolve, origin, isAbsolute_append hempty, steps_append, resolve_append, resolve, origin,
        steps_slash, resolve_append]
      rfl
  next h =>
    -- A slash is put between the two.
    have hempty : base ≠ "" := by
      rintro rfl
      simp at h
    rw [resolve, origin, String.append_assoc, isAbsolute_append hempty, ← String.append_assoc,
      steps_append, resolve_append]
    rfl

/-- A path that leads down ends at the place of the base with its parts added. -/
theorem resolve_join_of_descends (current : Place) (base : String) {p : String} (h : Descends p) :
    resolve current (join base p) = resolve current base ++ parts p := by
  have hsteps : steps p = (parts p).map Step.down := List.map_congr_left h
  rw [resolve_join current base h.isAbsolute, hsteps, resolveSteps_down]

end Path

namespace Disk

/-- Steps that can be followed lead to where they resolve to. -/
theorem follow_eq_ok {root : FileTree} {place place' : Path.Place} {steps : List Path.Step}
    (h : follow root place steps = .ok place') : place' = Path.resolveSteps place steps := by
  induction steps generalizing place with
  | nil => exact (Except.ok.inj h).symm
  | cons step rest ih =>
    rw [follow] at h
    split at h
    · cases h
    · cases h
    · exact ih h

/-- A write puts its bytes at the place of its path, and changes nothing else. -/
theorem write_eq_ok {d d' : Disk} {p : String} {content : List UInt8}
    (h : d.write p content = .ok d') :
    d' = { d with root := d.root.put (Path.resolve d.current p) (.file (.ok content)) } := by
  unfold write at h
  split at h
  next name _ hlast =>
    -- The last step leads down from a directory, which those before it lead to.
    obtain ⟨before, hbefore⟩ := List.getLast?_eq_some_iff.mp hlast
    rw [hbefore, List.dropLast_concat] at h
    have hplace : Path.resolve d.current p =
        Path.resolveSteps (Path.origin d.current p) before ++ [name] := by
      rw [Path.resolve, hbefore, Path.resolve_append]
      rfl
    cases habove : follow d.root (Path.origin d.current p) before with
    | error e =>
      rw [habove] at h
      cases h
    | ok above =>
      rw [hplace, ← follow_eq_ok habove]
      rw [habove] at h
      dsimp only [bind, Except.bind] at h
      split at h
      · cases h
      · split at h
        · exact (Except.ok.inj h).symm
        · cases h
      · cases h
      · cases h
  · cases h
  · cases h

end Disk

end Governance
