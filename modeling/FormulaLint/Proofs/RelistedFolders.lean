import FormulaLint.Proofs.ListedFiles

/-! Folders list their entries in an order of their own. A tree whose folders list the same entries
in another order shows the same at every place, so that paths lead to the same files. -/

namespace FormulaLint

theorem Dictionary.get?_eq_some_iff {α : Type} {dictionary : Dictionary α}
    (distinct : dictionary.names.Nodup) {name : String} {value : α} :
    get? dictionary name = some value ↔ (name, value) ∈ dictionary :=
  ⟨mem_of_get?, get?_of_mem distinct⟩

theorem Dictionary.get?_eq_of_perm {α : Type} {dictionary other : Dictionary α}
    (distinct : dictionary.names.Nodup) (same : dictionary.Perm other) (name : String) :
    get? other name = get? dictionary name := by
  have sameNames : dictionary.names.Perm other.names := same.map _
  have otherDistinct := sameNames.nodup_iff.mp distinct
  apply Option.ext
  intro value
  rw [get?_eq_some_iff otherDistinct, get?_eq_some_iff distinct, same.mem_iff]

namespace FileTree

/-- The same tree with another order of the entries in some of its folders. -/
inductive Relisted : FileTree → FileTree → Prop where
  | same {tree : FileTree} : Relisted tree tree
  | reordered {entries others : List (String × FileTree)} (same : entries.Perm others) :
      Relisted (.folder entries) (.folder others)
  | within {entries : List (String × FileTree)} {name : String} {inner changed : FileTree}
      (listed : Dictionary.get? entries name = some inner) (relisted : Relisted inner changed) :
      Relisted (.folder entries) (.folder (Dictionary.put name changed entries))
  | again {tree middle other : FileTree} (first : Relisted tree middle)
      (later : Relisted middle other) : Relisted tree other

namespace Relisted

variable {tree other : FileTree}

theorem wellNamed (relisted : Relisted tree other) (wellNamed : tree.WellNamed) :
    other.WellNamed := by
  induction relisted with
  | same => exact wellNamed
  | @reordered entries others same =>
      rw [WellNamed.folder_iff] at wellNamed ⊢
      rcases wellNamed with ⟨distinct, inside, each⟩
      have names : (Dictionary.names entries).Perm (Dictionary.names others) := same.map _
      refine ⟨names.nodup_iff.mp distinct, fun leads => inside (names.mem_iff.mpr leads), ?_⟩
      exact fun entry member => each entry (same.mem_iff.mpr member)
  | @within entries name inner changed listed relisted induction =>
      rw [WellNamed.folder_iff] at wellNamed ⊢
      rcases wellNamed with ⟨distinct, inside, each⟩
      have known : name ∈ Dictionary.names entries :=
        Dictionary.isSome_get?_iff.mp (listed ▸ rfl)
      rw [Dictionary.names_put, if_pos known]
      refine ⟨distinct, inside, ?_⟩
      intro entry member
      rcases Dictionary.mem_put member with rfl | old
      · exact induction (each _ (Dictionary.mem_of_get? listed))
      · exact each entry old
  | again first later firstInduction laterInduction =>
      exact laterInduction (firstInduction wellNamed)

/-- At every place there is a file with the same content, a folder, or nothing, as before. -/
theorem content?_at? (relisted : Relisted tree other) (wellNamed : tree.WellNamed)
    (place : List String) :
    (other.at? place).map content? = (tree.at? place).map content? := by
  induction relisted generalizing place with
  | same => rfl
  | @reordered entries others same =>
      cases place with
      | nil => rfl
      | cons name rest =>
          have distinct := (WellNamed.folder_iff.mp wellNamed).1
          rw [at?, at?, Dictionary.get?_eq_of_perm distinct same]
  | @within entries name inner changed listed relisted induction =>
      cases place with
      | nil => rfl
      | cons first rest =>
          have each := (WellNamed.folder_iff.mp wellNamed).2.2
          have below := each _ (Dictionary.mem_of_get? listed)
          rw [at?, at?, Dictionary.get?_put]
          by_cases same : name = first
          · subst same
            simp only [if_true, listed, Option.bind_some]
            exact induction below rest
          · rw [if_neg same]
  | again first later firstInduction laterInduction =>
      rw [laterInduction (first.wellNamed wellNamed), firstInduction wellNamed]

end Relisted

end FileTree

namespace Disk

variable {disk : Disk} {other : FileTree}

theorem content?_find?
    (same : ∀ place, (other.at? place).map FileTree.content? =
      (disk.tree.at? place).map FileTree.content?) (path : Path) (names : List String) :
    ((({ disk with tree := other } : Disk).find? path).bind (·.at? names)).map FileTree.content? =
      ((disk.find? path).bind (·.at? names)).map FileTree.content? := by
  rw [find?, find?, locate_congr fun place => FileTree.map_isFolder_eq (same place)]
  cases disk.locate path with
  | error fault => rfl
  | ok place =>
      dsimp only
      rw [← FileTree.at?_append, ← FileTree.at?_append]
      exact same (place ++ names)

end Disk

end FormulaLint
