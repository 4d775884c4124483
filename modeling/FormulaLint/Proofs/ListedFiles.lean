import FormulaLint.Disk.Discovery
import FormulaLint.Proofs.Dictionaries
import FormulaLint.Proofs.DiskFrame

/-! What a disk lists for an audit. Every listed path leads to a file, and the lists stay the same
when a file gets a new content. -/

namespace FormulaLint

namespace FileTree

variable {tree : FileTree} {place : List String} {entries : List (String × FileTree)}

/-- In each folder of the tree every name stands for one entry, and no entry has the name that leads
out of a folder. -/
def WellNamed (tree : FileTree) : Prop :=
  ∀ place entries, tree.at? place = some (.folder entries) →
    (Dictionary.names entries).Nodup ∧ ".." ∉ Dictionary.names entries

theorem at?_append (tree : FileTree) (front back : List String) :
    tree.at? (front ++ back) = (tree.at? front).bind fun inner => inner.at? back := by
  induction front generalizing tree with
  | nil => rfl
  | cons name rest induction =>
      cases tree with
      | file bytes => rfl
      | folder entries =>
          simp only [List.cons_append, at?, induction, Option.bind_assoc]

theorem mem_filesBelow_iff :
    place ∈ filesBelow entries ↔
      ∃ name inner rest, (name, inner) ∈ entries ∧ rest ∈ inner.files ∧ name :: rest = place := by
  induction entries with
  | nil => simp [filesBelow]
  | cons entry others induction =>
      rcases entry with ⟨first, tree⟩
      rw [filesBelow, List.mem_append, induction, List.mem_map]
      constructor
      · rintro (⟨rest, listed, rfl⟩ | ⟨name, inner, rest, member, listed, rfl⟩)
        · exact ⟨first, tree, rest, List.mem_cons_self, listed, rfl⟩
        · exact ⟨name, inner, rest, List.mem_cons_of_mem _ member, listed, rfl⟩
      · rintro ⟨name, inner, rest, member, listed, rfl⟩
        rcases List.mem_cons.mp member with equal | later
        · cases equal
          exact .inl ⟨rest, listed, rfl⟩
        · exact .inr ⟨name, inner, rest, later, listed, rfl⟩

theorem WellNamed.folder_iff :
    (folder entries).WellNamed ↔
      (Dictionary.names entries).Nodup ∧ ".." ∉ Dictionary.names entries ∧
        ∀ entry ∈ entries, entry.2.WellNamed := by
  constructor
  · intro wellNamed
    have here := wellNamed [] entries rfl
    refine ⟨here.1, here.2, ?_⟩
    rintro ⟨name, inner⟩ member place below stands
    refine wellNamed (name :: place) below ?_
    rw [at?, Dictionary.get?_of_mem here.1 member]
    exact stands
  · rintro ⟨distinct, inside, each⟩ place below stands
    cases place with
    | nil =>
        cases stands
        exact ⟨distinct, inside⟩
    | cons name rest =>
        rcases Option.bind_eq_some_iff.mp stands with ⟨inner, found, stands⟩
        exact each _ (Dictionary.mem_of_get? found) rest below stands

theorem wellNamed_file (bytes : ByteArray) : (file bytes).WellNamed := by
  intro place entries stands
  cases place <;> cases stands

/-! ## Lists of folders -/

def below? : FileTree → Option (List (List String))
  | .file _ => none
  | .folder entries => some (filesBelow entries)

private theorem files_eq (tree : FileTree) : tree.files = tree.below?.getD [[]] := by
  cases tree <;> rfl

private theorem filesBelow_put {name : String} {inner changed : FileTree}
    (listed : Dictionary.get? entries name = some inner) (same : changed.files = inner.files) :
    filesBelow (Dictionary.put name changed entries) = filesBelow entries := by
  induction entries with
  | nil => cases listed
  | cons entry rest induction =>
      rcases entry with ⟨first, tree⟩
      rw [Dictionary.put]
      by_cases known : first = name
      · have equal : tree = inner := by simpa [Dictionary.get?, known] using listed
        rw [if_pos known, filesBelow, filesBelow, same, equal, known]
      · have later : Dictionary.get? rest name = some inner := by
          simpa [Dictionary.get?, known] using listed
        rw [if_neg known, filesBelow, filesBelow, induction later]

theorem below?_put {old : ByteArray} (held : tree.at? place = some (.file old)) (new : ByteArray)
    (other : List String) :
    ((tree.put place (.file new)).at? other).map below? = (tree.at? other).map below? := by
  induction place generalizing tree other with
  | nil =>
      cases held
      cases other <;> rfl
  | cons name rest induction =>
      rcases exists_folder held with ⟨entries, inner, rfl, listed, below⟩
      cases other with
      | nil =>
          have same := Option.some.inj (induction below [])
          have files : (inner.put rest (.file new)).files = inner.files := by
            rw [files_eq, files_eq, same]
          simp only [put, at?, listed, Option.getD_some, Option.map_some, below?]
          rw [filesBelow_put listed files]
      | cons first others =>
          simp only [put, at?, listed, Option.getD_some, Dictionary.get?_put]
          by_cases same : name = first
          · subst same
            simp only [listed, if_true, Option.bind_some]
            exact induction below others
          · simp only [if_neg same]

end FileTree

namespace Disk

variable {disk : Disk} {path : Path} {suffixes : List String}

/-! ## Listed paths -/

theorem steps_of_mem_files (wellNamed : disk.tree.WellNamed) {around place : List String}
    {tree : FileTree} (stands : disk.tree.at? around = some tree) (listed : place ∈ tree.files) :
    place.foldlM disk.step around = .ok (around ++ place) ∧
      ∃ bytes, disk.tree.at? (around ++ place) = some (.file bytes) := by
  induction place generalizing around tree with
  | nil =>
      cases tree with
      | file bytes => exact ⟨by rw [List.append_nil]; rfl, bytes, by rwa [List.append_nil]⟩
      | folder entries =>
          rcases FileTree.mem_filesBelow_iff.mp listed with ⟨_, _, _, _, _, impossible⟩
          cases impossible
  | cons name rest induction =>
      cases tree with
      | file bytes => simp [FileTree.files] at listed
      | folder entries =>
          rcases FileTree.mem_filesBelow_iff.mp listed with ⟨_, inner, _, member, below, equal⟩
          cases equal
          rcases wellNamed around entries stands with ⟨distinct, inside⟩
          have found := Dictionary.get?_of_mem distinct member
          have proper : name ≠ ".." := by
            rintro rfl
            exact inside (List.mem_map_of_mem member)
          have standsBelow : disk.tree.at? (around ++ [name]) = some inner := by
            rw [FileTree.at?_append, stands]
            simp only [Option.bind_some, FileTree.at?, found]
          have next : disk.step around name = .ok (around ++ [name]) := by
            rw [step, stands]
            simp only [if_neg proper]
          have later := induction standsBelow below
          rw [List.append_assoc, List.singleton_append] at later
          rw [List.foldlM_cons, next]
          exact later

private theorem locate_join (disk : Disk) (path : Path) (names : List String) :
    disk.locate (path.join names) = disk.locate path >>= names.foldlM disk.step := by
  rw [locate, locate, Path.join, List.foldlM_append]

/-- Every path that is listed for an audit leads to a file. -/
theorem exists_read_of_mem_formulas (wellNamed : disk.tree.WellNamed) {roots : List Path}
    (listed : path ∈ disk.formulas suffixes roots) :
    ∃ bytes, disk.read path = .ok (some bytes) := by
  rcases List.mem_flatMap.mp listed with ⟨root, -, under⟩
  rw [formulasUnder] at under
  cases found : disk.find? root with
  | none =>
      rw [found] at under
      cases under
  | some tree =>
      rw [found] at under
      cases tree with
      | file bytes =>
          rw [List.mem_singleton] at under
          subst under
          exact ⟨bytes, by rw [read, found]⟩
      | folder entries =>
          rcases List.mem_map.mp (List.mem_of_mem_filter under) with ⟨names, sorted, rfl⟩
          have below : names ∈ (FileTree.folder entries).files := mem_stableSort.mp sorted
          rcases find?_eq_some_iff.mp found with ⟨place, located, stands⟩
          rcases steps_of_mem_files wellNamed stands below with ⟨steps, bytes, standsBelow⟩
          have reached : disk.locate (root.join names) = .ok (place ++ names) := by
            rw [locate_join, located]
            exact steps
          exact ⟨bytes, read_eq_ok_some_iff.mpr
            (find?_eq_some_iff.mpr ⟨place ++ names, reached, standsBelow⟩)⟩

/-! ## Rewritten files -/

/-- A disk on which one file has got a new content: that file holds it, everything else can be read
as before, paths lead where they did, and for every audit the same files are listed. -/
structure Rewrites (before after : Disk) (path : Path) (bytes : ByteArray) : Prop where
  stored : after.read path = .ok (some bytes)
  elsewhere : ∀ other, before.locate other ≠ before.locate path →
    after.read other = before.read other
  locates : ∀ other, after.locate other = before.locate other
  lists : ∀ suffixes roots, after.formulas suffixes roots = before.formulas suffixes roots

theorem formulasUnder_eq (disk : Disk) (suffixes : List String) (root : Path) :
    disk.formulasUnder suffixes root =
      match (disk.find? root).map FileTree.below? with
      | none => []
      | some none => [root]
      | some (some places) =>
          ((stableSort placePrecedes places).map root.join).filter fun path =>
            suffixes.contains path.suffix := by
  rw [formulasUnder]
  rcases disk.find? root with - | tree
  · rfl
  · cases tree <;> rfl

theorem rewrites_of_read {old : ByteArray} (held : disk.read path = .ok (some old))
    (new : ByteArray) : ∃ left, disk.write path new = .ok left ∧ disk.Rewrites left path new := by
  rcases exists_place_of_read held with ⟨place, located, stands⟩
  rcases write_of_read held new with ⟨left, written, stored, elsewhere⟩
  have leftEq := Except.ok.inj (written.symm.trans (write_eq located stands new))
  have locates (other : Path) : left.locate other = disk.locate other := by
    rw [leftEq, locate_put stands]
  refine ⟨left, written, stored, elsewhere, locates, ?_⟩
  intro suffixes roots
  refine congrArg (roots.flatMap ·) (funext fun root => ?_)
  rw [formulasUnder_eq, formulasUnder_eq, find?, find?, locates]
  cases disk.locate root with
  | error fault => rfl
  | ok around =>
      simp only [leftEq]
      rw [FileTree.below?_put stands]

end Disk

end FormulaLint
