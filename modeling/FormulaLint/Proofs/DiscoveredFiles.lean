import FormulaLint.Proofs.RelistedFolders
import FormulaLint.Text.Search
import Mathlib.Data.List.Sort

/-! Which files an audit finds. A root that is a file stands for itself; any other root stands for
the files below it whose names end as is asked, each of them once and in the order of their names. -/

namespace FormulaLint

/-! ## How names end -/

namespace Path

variable {name suffix : String} {stem ending chars : List Char}

/-- A name ends with its last dot and what stands behind it, if there is something on either side of
that dot; any other name ends with nothing. -/
inductive Ends (name : String) : String → Prop where
  | dotted {stem ending : List Char} (parts : name.toList = stem ++ '.' :: ending)
      (last : '.' ∉ ending) (front : stem ≠ []) (behind : ending ≠ []) :
      Ends name (String.ofList ('.' :: ending))
  | bare (undotted : ∀ stem ending, name.toList = stem ++ '.' :: ending → '.' ∉ ending →
      stem = [] ∨ ending = []) : Ends name ""

theorem takeWhile_reverse (last : '.' ∉ ending) :
    (stem ++ '.' :: ending).reverse.takeWhile (· != '.') = ending.reverse := by
  rw [List.reverse_append, List.reverse_cons, List.append_assoc, List.singleton_append,
    Text.takeWhile_append_of_notMem (by simpa using last), List.takeWhile_cons_of_neg (by simp),
    List.append_nil]

theorem suffixOf_append (last : '.' ∉ ending) :
    suffixOf (stem ++ '.' :: ending) = if stem = [] ∨ ending = [] then [] else '.' :: ending := by
  have longer : ending.length + 1 < (stem ++ '.' :: ending).length ↔ stem ≠ [] := by
    rw [List.length_append, List.length_cons, ← List.length_pos_iff]
    omega
  have shown : (decide (ending.length + 1 < (stem ++ '.' :: ending).length) &&
      !ending.isEmpty) = true ↔ ¬(stem = [] ∨ ending = []) := by
    rw [Bool.and_eq_true, decide_eq_true_iff, longer, Bool.not_eq_true', List.isEmpty_eq_false_iff,
      not_or]
  simp only [suffixOf, takeWhile_reverse last, List.reverse_reverse, shown, ite_not]

private theorem suffixOf_of_notMem (undotted : '.' ∉ chars) : suffixOf chars = [] := by
  have whole : chars.reverse.takeWhile (· != '.') = chars.reverse := by
    have passed := Text.takeWhile_append_of_notMem (List.mem_reverse.not.mpr undotted) []
    rwa [List.append_nil, List.takeWhile_nil, List.append_nil] at passed
  have short : ¬chars.length + 1 < chars.length := by omega
  simp [suffixOf, whole, short]

theorem exists_last_dot (dotted : '.' ∈ chars) :
    ∃ stem ending, chars = stem ++ '.' :: ending ∧ '.' ∉ ending := by
  rcases List.eq_append_cons_of_mem (List.mem_reverse.mpr dotted) with ⟨back, front, parts, last⟩
  refine ⟨front.reverse, back.reverse, ?_, by simpa using last⟩
  rw [← List.reverse_inj, parts]
  simp

theorem ends_iff : Ends name suffix ↔ String.ofList (suffixOf name.toList) = suffix := by
  constructor
  · rintro (⟨parts, last, front, behind⟩ | undotted)
    · rw [parts, suffixOf_append last, if_neg (not_or.mpr ⟨front, behind⟩)]
    · by_cases dotted : '.' ∈ name.toList
      · rcases exists_last_dot dotted with ⟨stem, ending, parts, last⟩
        rw [parts, suffixOf_append last, if_pos (undotted stem ending parts last)]
      · rw [suffixOf_of_notMem dotted]
  · rintro rfl
    by_cases dotted : '.' ∈ name.toList
    · rcases exists_last_dot dotted with ⟨stem, ending, parts, last⟩
      rw [parts, suffixOf_append last]
      split
      · next empty =>
          apply Ends.bare
          intro otherStem otherEnding otherParts otherLast
          -- There is one last dot, so that every such reading of the name is the one at hand.
          have sameEnding : ending = otherEnding := by
            rw [← List.reverse_inj, ← takeWhile_reverse last, ← parts, otherParts,
              takeWhile_reverse otherLast]
          have sameStem : stem = otherStem := by
            rw [parts, sameEnding] at otherParts
            exact List.append_cancel_right otherParts
          rwa [← sameStem, ← sameEnding]
      · next full => exact .dotted parts last (not_or.mp full).1 (not_or.mp full).2
    · rw [suffixOf_of_notMem dotted]
      apply Ends.bare
      intro stem ending parts
      exact absurd (parts ▸ List.mem_append_right stem List.mem_cons_self) dotted

def lastName (path : Path) : String :=
  path.names.getLast?.getD ""

theorem contains_suffix_iff {suffixes : List String} {path : Path} :
    suffixes.contains path.suffix = true ↔ ∃ suffix ∈ suffixes, Ends path.lastName suffix := by
  simp only [List.contains_iff_mem, ends_iff, exists_eq_right', suffix, lastName]

/-! ## The order of paths -/

def Before (left right : Path) : Prop :=
  left.slashes = right.slashes ∧ left.names < right.names

instance : Std.Irrefl Before where
  irrefl path before := List.lt_irrefl path.names before.2

instance : Std.Antisymm Before where
  antisymm _ _ before after := absurd before.2 (List.lt_asymm after.2)

private theorem before_join {places : List (List String)} (root : Path)
    (ordered : places.Pairwise (· < ·)) : (places.map root.join).Pairwise Before := by
  rw [List.pairwise_map]
  exact ordered.imp fun before => ⟨rfl, List.append_left_lt before⟩

end Path

theorem placePrecedes_iff {left right : List String} :
    placePrecedes left right = true ↔ ¬right < left := by
  rw [List.not_lt]
  induction left generalizing right with
  | nil => simp [placePrecedes]
  | cons name rest induction =>
      cases right with
      | nil => simp [placePrecedes]
      | cons other others =>
          rw [placePrecedes, List.cons_le_cons_iff]
          split
          · next same =>
              rw [induction, same]
              exact ⟨fun rests => .inr ⟨rfl, rests⟩,
                fun either => (either.resolve_left (String.lt_irrefl other)).2⟩
          · next different => simp [different]

theorem pairwise_lt_stableSort {places : List (List String)} (distinct : places.Nodup) :
    (stableSort placePrecedes places).Pairwise (· < ·) := by
  have transitive : ∀ first second third : List String, placePrecedes first second = true →
      placePrecedes second third = true → placePrecedes first third = true := by
    intro first second third before after
    rw [placePrecedes_iff, List.not_lt] at *
    exact List.le_trans before after
  have total : ∀ left right : List String,
      (placePrecedes left right || placePrecedes right left) = true := by
    intro left right
    rw [Bool.or_eq_true, placePrecedes_iff, placePrecedes_iff, List.not_lt, List.not_lt]
    exact List.le_total left right
  have ordered := pairwise_precedes_stableSort transitive total places
  have different : (stableSort placePrecedes places).Nodup :=
    (stableSort_perm places).nodup_iff.mpr distinct
  apply (ordered.and different).imp
  rintro left right ⟨before, apart⟩
  rw [placePrecedes_iff, List.not_lt] at before
  exact (List.le_iff_lt_or_eq.mp before).resolve_right apart

/-! ## Places of files -/

namespace FileTree

variable {tree : FileTree} {place : List String}

theorem mem_files_iff (wellNamed : tree.WellNamed) :
    place ∈ tree.files ↔ ∃ bytes, tree.at? place = some (.file bytes) := by
  induction place generalizing tree with
  | nil =>
      cases tree with
      | file bytes => simp [files, at?]
      | folder entries => simp [files, mem_filesBelow_iff, at?]
  | cons name rest induction =>
      cases tree with
      | file bytes => simp [files, at?]
      | folder entries =>
          rw [WellNamed.folder_iff] at wellNamed
          rcases wellNamed with ⟨distinct, -, each⟩
          rw [files, mem_filesBelow_iff]
          constructor
          · rintro ⟨_, inner, _, member, listed, equal⟩
            cases equal
            rcases (induction (each _ member)).mp listed with ⟨bytes, stands⟩
            exact ⟨bytes, by rw [at?, Dictionary.get?_of_mem distinct member]; exact stands⟩
          · rintro ⟨bytes, stands⟩
            rcases Option.bind_eq_some_iff.mp stands with ⟨inner, found, below⟩
            have member := Dictionary.mem_of_get? found
            exact ⟨name, inner, rest, member, (induction (each _ member)).mpr ⟨bytes, below⟩, rfl⟩

mutual

theorem nodup_files : (tree : FileTree) → tree.WellNamed → tree.files.Nodup
  | .file _, _ => List.nodup_singleton _
  | .folder entries, wellNamed =>
      have parts := WellNamed.folder_iff.mp wellNamed
      nodup_filesBelow entries parts.1 parts.2.2

theorem nodup_filesBelow : (entries : List (String × FileTree)) →
    (Dictionary.names entries).Nodup → (∀ entry ∈ entries, entry.2.WellNamed) →
      (filesBelow entries).Nodup
  | [], _, _ => .nil
  | (name, tree) :: rest, distinct, each => by
      rw [Dictionary.names_cons, List.nodup_cons] at distinct
      rw [filesBelow, List.nodup_append]
      refine ⟨?_, ?_, ?_⟩
      · exact (nodup_files tree (each _ List.mem_cons_self)).map fun _ _ same =>
          (List.cons.inj same).2
      · exact nodup_filesBelow rest distinct.2 fun entry member =>
          each entry (List.mem_cons_of_mem _ member)
      · intro left leftMember right rightMember equal
        rcases List.mem_map.mp leftMember with ⟨place, -, rfl⟩
        rcases mem_filesBelow_iff.mp rightMember with ⟨other, inner, _, member, -, rfl⟩
        cases equal
        exact distinct.1 (List.mem_map.mpr ⟨(name, inner), member, rfl⟩)

end

end FileTree

/-! ## What roots stand for -/

namespace Disk

/-- The paths that a root stands for: a file for itself, what is missing for none, and a folder for
the files at any depth below it that have one of the suffixes. Earlier paths come before later ones,
so that each of them is there once. -/
inductive StandsFor (disk : Disk) (suffixes : List String) (root : Path) : List Path → Prop where
  | itself {bytes : ByteArray} (found : disk.find? root = some (.file bytes)) :
      StandsFor disk suffixes root [root]
  | nothing (missing : disk.find? root = none) : StandsFor disk suffixes root []
  | below {entries : List (String × FileTree)} {paths : List Path}
      (found : disk.find? root = some (.folder entries))
      (exactly : ∀ path, path ∈ paths ↔
        (∃ names bytes, (FileTree.folder entries).at? names = some (.file bytes) ∧
          root.join names = path) ∧ ∃ suffix ∈ suffixes, Path.Ends path.lastName suffix)
      (ordered : paths.Pairwise Path.Before) : StandsFor disk suffixes root paths

variable {disk : Disk} {suffixes : List String} {root : Path} {paths others : List Path}

theorem StandsFor.unique (stands : disk.StandsFor suffixes root paths)
    (othersStand : disk.StandsFor suffixes root others) : paths = others := by
  cases stands with
  | itself found =>
      cases othersStand with
      | itself _ => rfl
      | nothing missing => cases found.symm.trans missing
      | below folder _ _ => cases found.symm.trans folder
  | nothing missing =>
      cases othersStand with
      | itself found => cases missing.symm.trans found
      | nothing _ => rfl
      | below folder _ _ => cases missing.symm.trans folder
  | below found exactly ordered =>
      cases othersStand with
      | itself file => cases found.symm.trans file
      | nothing missing => cases found.symm.trans missing
      | below folder othersExactly othersOrdered =>
          cases found.symm.trans folder
          apply ordered.eq_of_mem_iff othersOrdered
          intro path
          rw [exactly, othersExactly]

private theorem wellNamed_of_find? (wellNamed : disk.tree.WellNamed) {tree : FileTree}
    (found : disk.find? root = some tree) : tree.WellNamed := by
  rcases find?_eq_some_iff.mp found with ⟨around, -, here⟩
  intro place entries stands
  apply wellNamed (around ++ place) entries
  rw [FileTree.at?_append, here]
  exact stands

theorem standsFor_formulasUnder (wellNamed : disk.tree.WellNamed) (suffixes : List String)
    (root : Path) : disk.StandsFor suffixes root (disk.formulasUnder suffixes root) := by
  rw [formulasUnder]
  cases found : disk.find? root with
  | none => exact .nothing found
  | some tree =>
      have named := wellNamed_of_find? wellNamed found
      cases tree with
      | file bytes => exact .itself found
      | folder entries =>
          apply StandsFor.below found
          · intro path
            rw [List.mem_filter, Path.contains_suffix_iff, List.mem_map]
            simp only [mem_stableSort]
            refine and_congr_left' ⟨?_, ?_⟩
            · rintro ⟨names, listed, rfl⟩
              rcases (FileTree.mem_files_iff named).mp listed with ⟨bytes, stands⟩
              exact ⟨names, bytes, stands, rfl⟩
            · rintro ⟨names, bytes, stands, rfl⟩
              exact ⟨names, (FileTree.mem_files_iff named).mpr ⟨bytes, stands⟩, rfl⟩
          · have distinct : (FileTree.filesBelow entries).Nodup := FileTree.nodup_files _ named
            exact (Path.before_join root (pairwise_lt_stableSort distinct)).filter _

/-! ## Other orders of entries -/

theorem StandsFor.of_content? (stands : disk.StandsFor suffixes root paths) {other : FileTree}
    (same : ∀ place, (other.at? place).map FileTree.content? =
      (disk.tree.at? place).map FileTree.content?) :
    ({ disk with tree := other } : Disk).StandsFor suffixes root paths := by
  have shown := content?_find? same root
  have shownHere := shown []
  simp only [FileTree.at?, Option.bind_fun_some] at shownHere
  cases stands with
  | itself found =>
      rw [FileTree.eq_some_file_iff, ← shownHere, ← FileTree.eq_some_file_iff] at found
      exact .itself found
  | nothing missing =>
      rw [missing, Option.map_none, Option.map_eq_none_iff] at shownHere
      exact .nothing shownHere
  | @below entries paths found exactly ordered =>
      rw [found] at shown shownHere
      rcases Option.map_eq_some_iff.mp shownHere with ⟨tree, otherFound, folder⟩
      cases tree with
      | file bytes => cases folder
      | folder otherEntries =>
          simp only [otherFound, Option.bind_some] at shown
          refine .below otherFound (fun path => ?_) ordered
          rw [exactly]
          simp only [FileTree.eq_some_file_iff, shown]

/-! ## All roots -/

/-- Discovery is exact. The roots contribute one after another what they stand for and nothing else,
every path that is found leads to a file, and the order in which folders list their entries makes no
difference. -/
theorem formulas_exact (disk : Disk) (wellNamed : disk.tree.WellNamed) (suffixes : List String)
    (roots : List Path) :
    (∃ under : Path → List Path,
      disk.formulas suffixes roots = roots.flatMap under ∧
        ∀ root paths, disk.StandsFor suffixes root paths ↔ paths = under root) ∧
      (∀ path ∈ disk.formulas suffixes roots, ∃ bytes, disk.find? path = some (.file bytes)) ∧
      ∀ other, disk.tree.Relisted other →
        ({ disk with tree := other } : Disk).formulas suffixes roots =
          disk.formulas suffixes roots := by
  refine ⟨⟨disk.formulasUnder suffixes, rfl, ?_⟩, ?_, ?_⟩
  · intro root paths
    constructor
    · exact fun stands => stands.unique (standsFor_formulasUnder wellNamed suffixes root)
    · rintro rfl
      exact standsFor_formulasUnder wellNamed suffixes root
  · intro path listed
    rcases exists_read_of_mem_formulas wellNamed listed with ⟨bytes, held⟩
    exact ⟨bytes, read_eq_ok_some_iff.mp held⟩
  · intro other relisted
    have otherNamed := relisted.wellNamed wellNamed
    refine congrArg (roots.flatMap ·) (funext fun root => ?_)
    have stands := (standsFor_formulasUnder wellNamed suffixes root).of_content?
      (relisted.content?_at? wellNamed)
    exact (standsFor_formulasUnder otherNamed suffixes root).unique stands

/-- Formulas in a folder: beside one of them a folder whose name begins as its own does, and in that
a hidden file and a folder with the name of a formula. -/
def shelf : List (String × FileTree) :=
  [("a.rb", .file .empty), ("a", .folder [("z.rb", .file .empty), (".rb", .file .empty),
    ("m.rb", .folder [("b.x.rb", .file .empty), ("b.rb.x", .file .empty)])])]

def shelvedDisk : Disk where
  tree := .folder [("notes.txt", .file .empty), ("Formula", .folder shelf)]
  current := []

private theorem wellNamed_shelvedDisk : shelvedDisk.tree.WellNamed := by
  simp only [shelvedDisk, shelf, FileTree.WellNamed.folder_iff, List.forall_mem_cons,
    List.not_mem_nil, false_implies, implies_true, and_true, FileTree.wellNamed_file]
  decide

/-- The folders are listed the other way round. A root that is a file is found whatever its suffix,
and what lies below two roots is found twice. -/
theorem formulas_exact_shelvedDisk :
    shelvedDisk.tree.WellNamed ∧
      let relisted : FileTree := .folder [("Formula", .folder shelf.reverse),
        ("notes.txt", .file .empty)]
      shelvedDisk.tree.Relisted relisted ∧
        ({ shelvedDisk with tree := relisted } : Disk).formulas formulaSuffixes
            [⟨0, ["Formula"]⟩, ⟨0, ["gone"]⟩, ⟨0, ["notes.txt"]⟩, ⟨0, ["Formula", "a", "m.rb"]⟩] =
          [⟨0, ["Formula", "a", "m.rb", "b.x.rb"]⟩, ⟨0, ["Formula", "a", "z.rb"]⟩,
            ⟨0, ["Formula", "a.rb"]⟩, ⟨0, ["notes.txt"]⟩,
            ⟨0, ["Formula", "a", "m.rb", "b.x.rb"]⟩] := by
  have inner : FileTree.Relisted (.folder shelf) (.folder shelf.reverse) :=
    .reordered shelf.reverse_perm.symm
  have listed : Dictionary.get? [("notes.txt", FileTree.file .empty), ("Formula", .folder shelf)]
      "Formula" = some (.folder shelf) := rfl
  have relisted : shelvedDisk.tree.Relisted
      (.folder [("Formula", .folder shelf.reverse), ("notes.txt", .file .empty)]) :=
    .again (.within listed inner) (.reordered (.swap _ _ _))
  refine ⟨wellNamed_shelvedDisk, relisted, ?_⟩
  have exactly := formulas_exact shelvedDisk wellNamed_shelvedDisk formulaSuffixes
    [⟨0, ["Formula"]⟩, ⟨0, ["gone"]⟩, ⟨0, ["notes.txt"]⟩, ⟨0, ["Formula", "a", "m.rb"]⟩]
  rw [exactly.2.2 _ relisted]
  decide +kernel

end Disk

end FormulaLint
