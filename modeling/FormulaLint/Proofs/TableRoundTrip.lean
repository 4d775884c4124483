import FormulaLint.Proofs.TableKinds
import Mathlib.Data.List.Perm.Basic

/-! Tables and the documents that they are written to. Tables that were read from some document, or
built up from such in layers, are read again from what they are written as. -/

namespace FormulaLint

/-! ## Sets -/

theorem mem_sortedSet {name : String} {names : List String} :
    name ∈ sortedSet names ↔ name ∈ names := by
  rw [sortedSet, mem_stableSort, List.mem_eraseDups]

theorem nodup_sortedSet (names : List String) : (sortedSet names).Nodup :=
  (stableSort_perm _).nodup_iff.mpr (nodup_eraseDups names)

theorem pairwise_sortedSet (names : List String) : (sortedSet names).Pairwise (· ≤ ·) := by
  let precedes (left right : String) : Bool := decide (left ≤ right)
  have transitive : ∀ first second third, precedes first second = true →
      precedes second third = true → precedes first third = true :=
    fun _ _ _ before after => decide_eq_true
      (String.le_trans (of_decide_eq_true before) (of_decide_eq_true after))
  have total : ∀ left right, (precedes left right || precedes right left) = true :=
    fun left right => Bool.or_eq_true_iff.mpr
      ((String.le_total left right).imp decide_eq_true decide_eq_true)
  exact (pairwise_precedes_stableSort transitive total names.eraseDups).imp of_decide_eq_true

theorem sortedSet_eq {names others : List String} (same : ∀ name, name ∈ names ↔ name ∈ others) :
    sortedSet names = sortedSet others := by
  have members : (sortedSet names).Perm (sortedSet others) := by
    rw [List.perm_ext_iff_of_nodup (nodup_sortedSet names) (nodup_sortedSet others)]
    intro name
    rw [mem_sortedSet, mem_sortedSet, same]
  exact members.eq_of_pairwise (fun _ _ _ _ => String.le_antisymm) (pairwise_sortedSet names)
    (pairwise_sortedSet others)

private theorem sortedSet_sortedSet (names : List String) :
    sortedSet (sortedSet names) = sortedSet names :=
  sortedSet_eq fun _ => mem_sortedSet

namespace Tables

/-! ## Where the tables stand in a document -/

theorem get?_toDocument_mapping (tables : Tables) : ∀ table ∈ mappingTables,
    tables.toDocument.get? table.key = some (.mapping (table.written (table.rows tables))) := by
  simp only [mappingTables, List.forall_mem_cons]
  exact ⟨rfl, rfl, rfl, rfl, rfl, List.forall_mem_nil _⟩

theorem get?_toDocument_list (tables : Tables) : ∀ table ∈ listTables ++ setTables,
    tables.toDocument.get? table.key = some (listValue (table.names tables)) := by
  simp only [listTables, setTables, List.cons_append, List.nil_append, List.forall_mem_cons]
  exact ⟨rfl, rfl, rfl, rfl, rfl, rfl, List.forall_mem_nil _⟩

/-! ## Mappings

A row that was read once is read again from what it is written as. Names are texts by then, each stands
once, and so the rows that are written come to the dictionary they are taken from. -/

namespace MappingTable

variable {table : MappingTable} {dictionary : Dictionary table.Row}

structure Canonical (table : MappingTable) (dictionary : Dictionary table.Row) : Prop where
  distinct : dictionary.names.Nodup
  restored : ∀ entry ∈ dictionary, table.settle (table.write entry.2) = some entry.2

private theorem settle_write {value : Value} {row : table.Row}
    (settles : table.settle value = some row) :
    table.settle (table.write row) = some row := by
  rcases Option.bind_eq_some_iff.mp settles with ⟨raw, reads, finishes⟩
  rcases table.restores reads ((finish_eq_ok_iff "").mpr finishes) with
    ⟨again, readsAgain, finishesAgain⟩
  rw [settle, readsAgain, Option.bind_some, (finish_eq_ok_iff "").mp finishesAgain]

theorem Settles.canonical {rows : Entries} (settles : table.Settles rows dictionary) :
    table.Canonical dictionary := by
  have distinct : dictionary.names.Nodup := settles.names ▸ nodup_eraseDups _
  refine { distinct := distinct, restored := ?_ }
  intro entry member
  have given := settles.settled entry.1
  rw [Dictionary.get?_of_mem distinct member] at given
  rcases Option.bind_eq_some_iff.mp given.symm with ⟨value, -, made⟩
  exact settle_write made

theorem canonical_nil : table.Canonical [] where
  distinct := List.nodup_nil
  restored := nofun

theorem canonical_of_read {document : Entries} (made : table.read document = .ok dictionary) :
    table.Canonical dictionary := by
  cases standing : present? document table.key with
  | none =>
      rw [read, readMapping, standing] at made
      cases made
      exact canonical_nil
  | some value =>
      cases value with
      | mapping rows =>
          have found : document.get? table.key = some (.mapping rows) :=
            (Option.filter_eq_some_iff.mp standing).1
          exact (settles_of_read found made).canonical
      | scalar single =>
          rw [read, readMapping, standing] at made
          cases made
      | list items =>
          rw [read, readMapping, standing] at made
          cases made

private theorem namedRows_written (dictionary : Dictionary table.Row) :
    namedRows (table.written dictionary) =
      dictionary.map fun entry => (entry.1, table.write entry.2) :=
  List.map_map

theorem Canonical.settle_get? (canonical : table.Canonical dictionary) (name : String) :
    ((dictionary.get? name).map table.write).bind table.settle = dictionary.get? name := by
  cases found : dictionary.get? name with
  | none => rfl
  | some row => exact canonical.restored (name, row) (Dictionary.mem_of_get? found)

theorem Canonical.settles (canonical : table.Canonical dictionary) :
    table.Settles (table.written dictionary) dictionary := by
  have sameNames : Dictionary.names (namedRows (table.written dictionary)) = dictionary.names := by
    rw [namedRows_written, Dictionary.names_map fun _ => table.write]
  refine { readable := ?_, names := ?_, settled := ?_ }
  · intro row member
    rcases List.mem_map.mp member with ⟨entry, inTable, rfl⟩
    rcases Option.bind_eq_some_iff.mp (canonical.restored entry inTable) with ⟨raw, reads, -⟩
    exact Option.isSome_of_eq_some reads
  · exact ((eraseDups_eq_self canonical.distinct).symm).trans (congrArg _ sameNames.symm)
  · intro name
    rw [Dictionary.last?_eq_get? (sameNames ▸ canonical.distinct), namedRows_written,
      Dictionary.get?_map fun _ => table.write, canonical.settle_get?]

end MappingTable

/-! ## All tables -/

structure Canonical (tables : Tables) : Prop where
  mappings : ∀ table ∈ mappingTables, table.Canonical (table.rows tables)
  sets : ∀ table ∈ setTables, sortedSet (table.names tables) = table.names tables

variable {tables merged : Tables} {document : Entries}

theorem canonical_of_ofDocument (made : ofDocument document = .ok tables) : tables.Canonical := by
  have read := ofDocument_eq_ok_iff.mp made
  refine { mappings := ?_, sets := ?_ }
  · intro table listed
    exact MappingTable.canonical_of_read (read.mappings table listed)
  · intro table listed
    rcases Except.exists_of_map_eq_ok (read.sets table listed) with ⟨names, -, kept⟩
    rw [← kept, sortedSet_sortedSet]

theorem readList_toDocument (tables : Tables) : ∀ table ∈ listTables ++ setTables,
    readList tables.toDocument table.key = .ok (table.names tables) := by
  intro table listed
  rw [readList_of_list (get?_toDocument_list tables table listed), List.map_map]
  exact congrArg Except.ok (List.map_id (table.names tables))

theorem ofDocument_toDocument (canonical : tables.Canonical) :
    ofDocument tables.toDocument = .ok tables := by
  refine ofDocument_eq_ok_iff.mpr { mappings := ?_, lists := ?_, sets := ?_ }
  · intro table listed
    rw [MappingTable.read_eq_ok_iff (get?_toDocument_mapping tables table listed)]
    exact (canonical.mappings table listed).settles
  · intro table listed
    exact readList_toDocument tables table (List.mem_append_left _ listed)
  · intro table listed
    rw [readList_toDocument tables table (List.mem_append_right _ listed)]
    exact congrArg Except.ok (canonical.sets table listed)

/-! ## Layers -/

/-- Tables that are read from a document, or made from such by adding documents on top. -/
inductive Reachable : Tables → Prop where
  | read {document : Entries} {tables : Tables} (made : ofDocument document = .ok tables) :
      Reachable tables
  | merged {tables merged : Tables} {document : Entries} (before : Reachable tables)
      (made : tables.merge document = .ok merged) : Reachable merged

theorem Reachable.canonical (reachable : tables.Reachable) : tables.Canonical := by
  cases reachable with
  | read made => exact canonical_of_ofDocument made
  | merged before made => exact canonical_of_ofDocument made

/-- Names that stand once, rows that are read again, and sorted sets: tables like that can be made,
and no other ones. -/
theorem reachable_iff_canonical : tables.Reachable ↔ tables.Canonical :=
  ⟨Reachable.canonical, fun canonical => .read (ofDocument_toDocument canonical)⟩

/-- Tables that are made from documents are read again from what they are written as, a layer
without entries leaves them as they are, and either way they are written as before. -/
theorem ofDocument_toDocument_of_reachable (reachable : tables.Reachable) :
    ofDocument tables.toDocument = .ok tables ∧ tables.merge [] = .ok tables ∧
      toDocument <$> ofDocument tables.toDocument = .ok tables.toDocument ∧
      toDocument <$> tables.merge [] = .ok tables.toDocument := by
  have restored := ofDocument_toDocument reachable.canonical
  have unchanged : tables.merge [] = .ok tables := restored
  rw [restored, unchanged]
  exact ⟨rfl, rfl, rfl, rfl⟩

/-- A document whose rows are not written as they are read: two keys come to the name `1`, and the
tags stand unsorted, one of them twice. -/
def unsettledDocument : Entries := [
  (.text "path_shortcuts", .mapping [(.text "bin", .list [.text "(?P<shortcut>bin)"])]),
  (.text "deprecated_dependencies", .mapping [(.whole 1, .text "one"), (.text "1", .null)]),
  (.text "dependency_tags", .list [.text "run", .text "build", .scalar (.whole 1), .text "run"])]

theorem ofDocument_toDocument_unsettled :
    ∃ tables merged, ofDocument unsettledDocument = .ok tables ∧
      tables.merge [(.text "dependency_tags", .list [.text "optional"])] = .ok merged ∧
      merged.dependencyTags = ["1", "build", "optional", "run"] ∧
      merged.deprecatedDependencies.names = ["1"] ∧ merged.pathShortcuts.names = ["bin"] ∧
      (ofDocument merged.toDocument = .ok merged ∧ merged.merge [] = .ok merged ∧
        toDocument <$> ofDocument merged.toDocument = .ok merged.toDocument ∧
        toDocument <$> merged.merge [] = .ok merged.toDocument) := by
  have layers : ((ofDocument unsettledDocument >>= fun tables =>
      tables.merge [(.text "dependency_tags", .list [.text "optional"])]).toOption.map fun merged =>
        (merged.dependencyTags, merged.deprecatedDependencies.names, merged.pathShortcuts.names)) =
      some (["1", "build", "optional", "run"], ["1"], ["bin"]) := by
    decide +kernel
  rcases Option.map_eq_some_iff.mp layers with ⟨merged, made, shown⟩
  rcases Except.exists_of_bind_eq_ok (Except.toOption_eq_some_iff.mp made) with
    ⟨tables, reads, merges⟩
  rcases Prod.mk.inj shown with ⟨tags, others⟩
  rcases Prod.mk.inj others with ⟨dependencies, shortcuts⟩
  exact ⟨tables, merged, reads, merges, tags, dependencies, shortcuts,
    ofDocument_toDocument_of_reachable (.merged (.read reads) merges)⟩

end Tables

end FormulaLint
