import FormulaLint.Disk

/-! Writing to a file that is there: the file holds what was written, and everything else on the
disk is as it was. -/

namespace FormulaLint

namespace FileTree

variable {tree : FileTree} {place other : List String} {old new : ByteArray}

def content? : FileTree → Option ByteArray
  | .file bytes => some bytes
  | .folder _ => none

theorem exists_folder {name : String} {rest : List String} {found : FileTree}
    (stands : tree.at? (name :: rest) = some found) :
    ∃ entries inner, tree = .folder entries ∧ Dictionary.get? entries name = some inner ∧
      inner.at? rest = some found := by
  cases tree with
  | file bytes => cases stands
  | folder entries =>
      rcases Option.bind_eq_some_iff.mp stands with ⟨inner, listed, below⟩
      exact ⟨entries, inner, rfl, listed, below⟩

theorem at?_put (held : tree.at? place = some (.file old)) :
    (tree.put place (.file new)).at? place = some (.file new) := by
  induction place generalizing tree with
  | nil => rfl
  | cons name rest induction =>
      rcases exists_folder held with ⟨entries, inner, rfl, listed, below⟩
      simp only [put, at?, listed, Option.getD_some, Dictionary.get?_put, if_true,
        Option.bind_some]
      exact induction below

theorem content?_put (held : tree.at? place = some (.file old)) (elsewhere : other ≠ place) :
    ((tree.put place (.file new)).at? other).map content? = (tree.at? other).map content? := by
  induction place generalizing tree other with
  | nil =>
      cases held
      cases other with
      | nil => exact absurd rfl elsewhere
      | cons name rest => rfl
  | cons name rest induction =>
      rcases exists_folder held with ⟨entries, inner, rfl, listed, below⟩
      cases other with
      | nil => rfl
      | cons first others =>
          simp only [put, at?, listed, Option.getD_some, Dictionary.get?_put]
          by_cases same : name = first
          · subst same
            have apart : others ≠ rest := fun equal => elsewhere (equal ▸ rfl)
            simp only [listed, if_true, Option.bind_some]
            exact induction below apart
          · simp only [if_neg same]

theorem isFolder_eq (tree : FileTree) : tree.isFolder = tree.content?.isNone := by
  cases tree <;> rfl

theorem eq_some_file_iff {found : Option FileTree} {bytes : ByteArray} :
    found = some (.file bytes) ↔ found.map content? = some (some bytes) := by
  rcases found with - | (_ | _) <;> simp [content?]

theorem map_isFolder_eq {left right : Option FileTree}
    (same : left.map content? = right.map content?) : left.map isFolder = right.map isFolder := by
  have folders := congrArg (Option.map Option.isNone) same
  simpa only [Option.map_map, Function.comp_def, ← isFolder_eq] using folders

theorem isFolder_put (held : tree.at? place = some (.file old)) (other : List String) :
    ((tree.put place (.file new)).at? other).map isFolder = (tree.at? other).map isFolder := by
  by_cases same : other = place
  · rw [same, at?_put held, held]
    rfl
  · exact map_isFolder_eq (content?_put held same)

end FileTree

namespace Disk

variable {disk : Disk} {path : Path} {old : ByteArray}

theorem step_eq (disk : Disk) (place : List String) (name : String) :
    disk.step place name =
      match (disk.tree.at? place).map FileTree.isFolder with
      | some true => .ok (if name = ".." then place.dropLast else place ++ [name])
      | some false => .error .notFolder
      | none => .error .missing := by
  rw [step]
  rcases disk.tree.at? place with - | tree
  · rfl
  · cases tree <;> rfl

theorem read_eq (disk : Disk) (path : Path) :
    disk.read path =
      match disk.locate path with
      | .error _ => .ok none
      | .ok place =>
          match (disk.tree.at? place).map FileTree.content? with
          | none => .ok none
          | some none => .error .isFolder
          | some (some bytes) => .ok (some bytes) := by
  rw [read, find?]
  rcases disk.locate path with fault | place
  · rfl
  · dsimp only
    rcases disk.tree.at? place with - | tree
    · rfl
    · cases tree <;> rfl

theorem find?_eq_some_iff {tree : FileTree} :
    disk.find? path = some tree ↔
      ∃ place, disk.locate path = .ok place ∧ disk.tree.at? place = some tree := by
  rw [find?]
  cases disk.locate path with
  | error fault => simp
  | ok place => simp

theorem read_eq_ok_some_iff {bytes : ByteArray} :
    disk.read path = .ok (some bytes) ↔ disk.find? path = some (.file bytes) := by
  rw [read]
  rcases disk.find? path with - | (_ | _) <;> simp

theorem exists_place_of_read (held : disk.read path = .ok (some old)) :
    ∃ place, disk.locate path = .ok place ∧ disk.tree.at? place = some (.file old) :=
  find?_eq_some_iff.mp (read_eq_ok_some_iff.mp held)

theorem locate_congr {tree : FileTree}
    (same : ∀ place, (tree.at? place).map FileTree.isFolder =
      (disk.tree.at? place).map FileTree.isFolder) (path : Path) :
    ({ disk with tree := tree } : Disk).locate path = disk.locate path := by
  have steps : ({ disk with tree := tree } : Disk).step = disk.step := by
    funext around name
    rw [step_eq, step_eq, same]
  rw [locate, locate, steps]

/-- Paths lead where they did after a file got a new content. -/
theorem locate_put {place : List String} (stands : disk.tree.at? place = some (.file old))
    (new : ByteArray) (other : Path) :
    ({ disk with tree := disk.tree.put place (.file new) } : Disk).locate other =
      disk.locate other :=
  locate_congr (FileTree.isFolder_put stands) other

theorem write_eq {place : List String} (located : disk.locate path = .ok place)
    (stands : disk.tree.at? place = some (.file old)) (new : ByteArray) :
    disk.write path new = .ok { disk with tree := disk.tree.put place (.file new) } := by
  simp only [write, located, stands, bind, Except.bind]
  rfl

/-- A file that can be read can be written. Paths lead where they did, and what does not lead to the
file shows what it did. -/
theorem write_of_read (held : disk.read path = .ok (some old)) (new : ByteArray) :
    ∃ left, disk.write path new = .ok left ∧ left.read path = .ok (some new) ∧
      ∀ other, disk.locate other ≠ disk.locate path → left.read other = disk.read other := by
  rcases exists_place_of_read held with ⟨place, located, stands⟩
  refine ⟨_, write_eq located stands new, ?_, ?_⟩
  · rw [read_eq, locate_put stands, located]
    dsimp only
    rw [FileTree.at?_put stands]
    rfl
  · intro other elsewhere
    rw [read_eq, read_eq, locate_put stands]
    rcases reached : disk.locate other with fault | around
    · rfl
    · have apart : around ≠ place := by
        rintro rfl
        exact elsewhere (reached.trans located.symm)
      dsimp only
      rw [FileTree.content?_put stands apart]

end Disk

end FormulaLint
