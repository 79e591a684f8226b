/-!
# Searching and cutting text

Cutting at a character (`cells`) and at the occurrences of a text (`pieces`), and what follows from
the second: replacing, and finding out whether a text occurs. Occurrences are taken from the left
and do not overlap.

* `joinCells_cells`: the cells put back together give the text.
* `cells_ne_nil`: there is always a cell.
-/

set_option autoImplicit false

namespace Governance.Text

/-- The parts of a text between the occurrences of a character. -/
def cells (sep : Char) : List Char → List (List Char)
  | [] => [[]]
  | c :: rest =>
    if c = sep then [] :: cells sep rest
    else match cells sep rest with
      | [] => [[c]]
      | cell :: more => (c :: cell) :: more

/-- There is always a cell: a text without separators is one. -/
theorem cells_ne_nil (sep : Char) (s : List Char) : cells sep s ≠ [] := by
  cases s with
  | nil => simp [cells]
  | cons c rest =>
    rw [cells]
    split
    · simp
    · split <;> simp

/-- The cells put back together with the separator between them. -/
def joinCells (sep : Char) : List (List Char) → List Char
  | [] => []
  | [cell] => cell
  | cell :: more => cell ++ sep :: joinCells sep more

/-- Cells with the separators put back between them are the text. -/
theorem joinCells_cells (sep : Char) (s : List Char) : joinCells sep (cells sep s) = s := by
  induction s with
  | nil => rfl
  | cons c rest ih =>
    rw [cells]
    split
    next h =>
      subst h
      -- A separator ends an empty cell in front of those of the rest.
      cases hr : cells c rest with
      | nil => exact absurd hr (cells_ne_nil _ _)
      | cons cell more =>
        rw [hr] at ih
        simp [joinCells, ih]
    next =>
      -- Another character belongs to the first cell of the rest.
      cases hr : cells sep rest with
      | nil => exact absurd hr (cells_ne_nil _ _)
      | cons cell more =>
        rw [hr] at ih
        cases more <;> simp_all [joinCells]

/-- The parts of a text between the occurrences of a character. -/
def splitAtChar (sep : Char) (s : String) : List String := (cells sep s.toList).map String.ofList

/-- The parts between the occurrences of `sep`: `skip` characters belong to an occurrence already
met, and `done` is the part before, backwards. -/
def piecesFrom (sep : List Char) : Nat → List Char → List Char → List (List Char)
  | _, done, [] => [done.reverse]
  | skip + 1, done, _ :: rest => piecesFrom sep skip done rest
  | 0, done, c :: rest =>
    if sep.isPrefixOf (c :: rest) then done.reverse :: piecesFrom sep (sep.length - 1) [] rest
    else piecesFrom sep 0 (c :: done) rest

/-- The parts of a text between the occurrences of a text that is not empty. -/
def pieces (sep s : String) : List String :=
  (piecesFrom sep.toList 0 [] s.toList).map String.ofList

/-- Whether `part` occurs in a list of characters. -/
def occursIn (part : List Char) : List Char → Bool
  | [] => part.isEmpty
  | c :: rest => part.isPrefixOf (c :: rest) || occursIn part rest

/-- Whether `part` occurs in `s`. -/
def occurs (part s : String) : Bool := occursIn part.toList s.toList

/-- `s` with every occurrence of `old` replaced. The empty text occurs before every character and at
the end. -/
def replaceAll (s old new : String) : String :=
  if old.isEmpty then
    String.ofList (new.toList ++ s.toList.flatMap fun c => c :: new.toList)
  else new.intercalate (pieces old s)

/-- Whether `s` begins with `part`. -/
def beginsWith (part s : String) : Bool := part.toList.isPrefixOf s.toList

/-- Whether `s` ends with `part`. -/
def finishesWith (part s : String) : Bool := part.toList.isSuffixOf s.toList

end Governance.Text
