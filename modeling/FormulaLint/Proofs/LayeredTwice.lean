import FormulaLint.Proofs.ExtendedLists
import FormulaLint.Proofs.UpdatedMappings

/-! A document that is layered twice. What it adds is compared as it is given with tables in which all
names are texts already: a name that is given as anything else is not recognised. -/

namespace FormulaLint

namespace Tables

/-! ## Sets that are extended twice -/

private theorem sortedSet_extended (names : List String) (additions : List Value) :
    sortedSet (extended (sortedSet (extended names additions)) additions) =
      sortedSet (extended names additions) := by
  apply sortedSet_eq
  intro name
  rw [mem_extended_iff, mem_sortedSet]
  exact or_iff_left_of_imp fun added => mem_extended_iff.mpr (.inr added)

/-! ## Documents that are layered twice -/

section

variable {base document : Entries} {key : String}

theorem get?_layerEntries_of_absent (absent : document.get? key = none) :
    (layerEntries base document).get? key = base.get? key :=
  value?_layerEntries_of_new (Entries.value?_eq_none_iff.mp absent)

theorem get?_layerEntries_of_given {value : Value} (distinct : document.Distinct)
    (given : document.get? key = some value) :
    (layerEntries base document).get? key = some (layerValue (base.get? key) value) := by
  refine (value?_layerEntries distinct (.text key)).trans ?_
  rw [show document.value? (.text key) = some value from given]
  rfl

end

/-- A document in which no key stands twice, neither at the top nor in what a key has. -/
structure WellFormed (document : Entries) : Prop where
  keys : document.Distinct
  rows : ∀ entry ∈ document, ∀ rows, entry.2 = .mapping rows → Entries.Distinct rows

variable {tables merged : Tables} {document : Entries}

theorem WellFormed.distinct_of_get? {rows : Entries} {key : String} (wellFormed : WellFormed document)
    (given : document.get? key = some (.mapping rows)) : rows.Distinct := by
  rcases Option.map_eq_some_iff.mp given with ⟨entry, has, value⟩
  exact wellFormed.rows entry (List.mem_of_find?_eq_some has) rows value

theorem MappingTable.read_congr (table : MappingTable) {other : Entries}
    (same : document.get? table.key = other.get? table.key) :
    table.read document = table.read other := by
  rw [read, readMapping_congr table.reads same]
  rfl

theorem read_again_iff (canonical : tables.Canonical) (again : merged.Canonical)
    (wellFormed : WellFormed document) {table : MappingTable} (listed : table ∈ mappingTables)
    (first : table.read (layerEntries tables.toDocument document) = .ok (table.rows merged)) :
    table.read (layerEntries merged.toDocument document) = .ok (table.rows merged) ↔
      ∀ rows, document.get? table.key = some (.mapping rows) →
        table.Consistent rows (table.rows tables) := by
  have standing (tables : Tables) := get?_toDocument_mapping tables table listed
  cases given : document.get? table.key with
  | none =>
      refine iff_of_true ?_ nofun
      rw [table.read_congr (get?_layerEntries_of_absent given),
        MappingTable.read_eq_ok_iff (standing merged)]
      exact (again.mappings table listed).settles
  | some value =>
      have layered (tables : Tables) :
          (layerEntries tables.toDocument document).get? table.key =
            some (layerValue (some (.mapping (table.written (table.rows tables)))) value) := by
        rw [get?_layerEntries_of_given wellFormed.keys given, standing]
      cases value with
      | mapping rows =>
          rw [MappingTable.read_eq_ok_iff (layered tables)] at first
          rw [MappingTable.read_eq_ok_iff (layered merged),
            MappingTable.settles_again_iff (canonical.mappings table listed)
              (wellFormed.distinct_of_get? given) first]
          constructor
          · intro consistent others same
            cases same
            exact consistent
          · exact fun consistent => consistent rows rfl
      | scalar single =>
          refine iff_of_true ?_ nofun
          rw [table.read_congr ((layered merged).trans (layered tables).symm), first]
      | list items =>
          refine iff_of_true ?_ nofun
          rw [table.read_congr ((layered merged).trans (layered tables).symm), first]

/-- A table of names after a layer: extended by a list, and as it was where nothing is given. Anything
else takes its place, whatever the names were. -/
theorem readList_layerEntries (distinct : document.Distinct) {table : NameTable}
    (listed : table ∈ listTables ++ setTables) :
    readList (layerEntries tables.toDocument document) table.key =
      match document.get? table.key with
      | none => .ok (table.names tables)
      | some (.list items) => .ok (extended (table.names tables) items)
      | some _ => readList document table.key := by
  have standing := get?_toDocument_list tables table listed
  cases given : document.get? table.key with
  | none =>
      rw [readList_congr (get?_layerEntries_of_absent given),
        readList_toDocument tables table listed]
  | some value =>
      have layered : (layerEntries tables.toDocument document).get? table.key = _ :=
        get?_layerEntries_of_given distinct given
      rw [standing] at layered
      cases value with
      | list items => exact readList_of_list layered
      | scalar single => exact readList_congr (layered.trans given.symm)
      | mapping rows => exact readList_congr (layered.trans given.symm)

theorem readList_again_iff (distinct : document.Distinct) {table : NameTable}
    (listed : table ∈ listTables)
    (first : readList (layerEntries tables.toDocument document) table.key =
      .ok (table.names merged)) :
    readList (layerEntries merged.toDocument document) table.key = .ok (table.names merged) ↔
      ∀ items, document.get? table.key = some (.list items) →
        ∀ item ∈ items, item.isText = true := by
  have inBoth := List.mem_append_left setTables listed
  rw [readList_layerEntries distinct inBoth] at first ⊢
  cases given : document.get? table.key with
  | none => exact iff_of_true rfl nofun
  | some value =>
      rw [given] at first
      cases value with
      | list items =>
          rw [← Except.ok.inj first, Except.ok.injEq, extended_extended_iff]
          constructor
          · intro texts others same
            cases same
            exact texts
          · exact fun texts => texts items rfl
      | scalar single => exact iff_of_true first nofun
      | mapping rows => exact iff_of_true first nofun

private theorem sortedSet_again (distinct : document.Distinct) {table : NameTable}
    (listed : table ∈ setTables) (again : merged.Canonical)
    (first : sortedSet <$> readList (layerEntries tables.toDocument document) table.key =
      .ok (table.names merged)) :
    sortedSet <$> readList (layerEntries merged.toDocument document) table.key =
      .ok (table.names merged) := by
  have inBoth := List.mem_append_right listTables listed
  rw [readList_layerEntries distinct inBoth] at first ⊢
  cases given : document.get? table.key with
  | none => exact congrArg Except.ok (again.sets table listed)
  | some value =>
      rw [given] at first
      cases value with
      | list items =>
          have names : sortedSet (extended (table.names tables) items) = table.names merged :=
            Except.ok.inj first
          refine congrArg Except.ok ?_
          rw [← names, sortedSet_extended]
      | scalar single => exact first
      | mapping rows => exact first

/-- A document that merges into tables does no more when it is merged again, just if what it adds to
the three lists is given as texts, and its mappings do not give a new name two readings under keys of
which some are texts and others are not. -/
theorem merge_merge_iff (reachable : tables.Reachable) (wellFormed : WellFormed document)
    (merges : tables.merge document = .ok merged) :
    merged.merge document = .ok merged ↔
      (∀ table ∈ listTables, ∀ items, document.get? table.key = some (.list items) →
        ∀ item ∈ items, item.isText = true) ∧
      ∀ table ∈ mappingTables, ∀ rows, document.get? table.key = some (.mapping rows) →
        table.Consistent rows (table.rows tables) := by
  have first : merged.AreReadFrom (layerEntries tables.toDocument document) :=
    ofDocument_eq_ok_iff.mp merges
  have canonical := reachable.canonical
  have again : merged.Canonical := canonical_of_ofDocument merges
  rw [merge, ofDocument_eq_ok_iff]
  constructor
  · intro second
    constructor
    · intro table listed
      exact (readList_again_iff wellFormed.keys listed (first.lists table listed)).mp
        (second.lists table listed)
    · intro table listed
      exact (read_again_iff canonical again wellFormed listed (first.mappings table listed)).mp
        (second.mappings table listed)
  · rintro ⟨texts, consistent⟩
    refine { mappings := ?_, lists := ?_, sets := ?_ }
    · intro table listed
      exact (read_again_iff canonical again wellFormed listed (first.mappings table listed)).mpr
        (consistent table listed)
    · intro table listed
      exact (readList_again_iff wellFormed.keys listed (first.lists table listed)).mpr
        (texts table listed)
    · intro table listed
      exact sortedSet_again wellFormed.keys listed again (first.sets table listed)

/-- Two keys come to one name with different values: of the two, the second merge takes the other one,
which is no list of patterns. -/
example :
    let document : Entries := [(.text "path_shortcuts", .mapping
      [(.whole 1, .text "bin"), (.text "1", .list [.text "(?P<shortcut>bin)"])])]
    (Tables.merge {} document).isOk = true ∧
      (Tables.merge {} document >>= (·.merge document)).isOk = false := by
  decide +kernel

/-- A document with two keys of one name that have one value, a number in a set, and a text that is
listed twice. -/
def settledLayer : Entries := [
  (.text "vendored_languages", .list [.text "go", .text "go"]),
  (.text "dependency_tags", .list [.scalar (.whole 1), .text "run"]),
  (.text "deprecated_constants", .mapping [(.whole 1, .text "one"), (.text "1", .text "one")])]

theorem reachable_empty : Reachable {} :=
  .read (show ofDocument [] = .ok {} from rfl)

private theorem wellFormed_settledLayer : WellFormed settledLayer where
  keys := by simp [settledLayer, Entries.Distinct, Scalar.same, Scalar.tenths?]
  rows := by simp [settledLayer, Entries.Distinct, Scalar.same, Scalar.tenths?]

theorem merge_merge_settledLayer :
    ∃ merged, Tables.merge {} settledLayer = .ok merged ∧ merged.vendoredLanguages = ["go"] ∧
      merged.dependencyTags = ["1", "run"] ∧ merged.merge settledLayer = .ok merged := by
  have merges : ((Tables.merge {} settledLayer).toOption.map fun merged =>
      (merged.vendoredLanguages, merged.dependencyTags)) = some (["go"], ["1", "run"]) := by
    decide +kernel
  rcases Option.map_eq_some_iff.mp merges with ⟨merged, made, shown⟩
  rcases Prod.mk.inj shown with ⟨languages, tags⟩
  have made := Except.toOption_eq_some_iff.mp made
  have absent {value : Value} {goal : Prop} (given : none = some value) : goal :=
    (Option.some_ne_none value given.symm).elim
  refine ⟨merged, made, languages, tags,
    (merge_merge_iff reachable_empty wellFormed_settledLayer made).mpr ⟨?_, ?_⟩⟩
  · simp only [listTables, List.forall_mem_cons]
    refine ⟨fun _ given => absent given, ?_, fun _ given => absent given, List.forall_mem_nil _⟩
    intro items given
    cases (show some (Value.list [.text "go", .text "go"]) = some (.list items) from given)
    simp [Value.isText, Scalar.isText]
  · simp only [mappingTables, List.forall_mem_cons]
    refine ⟨fun _ given => absent given, fun _ given => absent given, fun _ given => absent given,
      fun _ given => absent given, ?_, List.forall_mem_nil _⟩
    intro rows given name _ last other lastIs otherIs
    cases (show some (Value.mapping [(.whole 1, .text "one"), (.text "1", .text "one")]) =
      some (.mapping rows) from given)
    have sameValue : ∀ row ∈ [(Scalar.whole 1, Value.text "one"), (.text "1", .text "one")],
        row.2 = .text "one" := by simp
    rcases exists_row_of_last? lastIs with ⟨lastRow, lastListed, -, rfl⟩
    rcases exists_row_of_last? otherIs with ⟨otherRow, otherListed, -, rfl⟩
    rw [sameValue lastRow lastListed, sameValue otherRow (List.mem_filter.mp otherListed).1]

def numberedLanguage : Entries := [(.text "vendored_languages", .list [.scalar (.whole 1)])]

/-- The number is in the list as a text after the first merge and is added again by the second. -/
theorem not_merge_merge_numberedLanguage :
    ∃ merged again, Reachable {} ∧ WellFormed numberedLanguage ∧
      Tables.merge {} numberedLanguage = .ok merged ∧
      merged.merge numberedLanguage = .ok again ∧ again ≠ merged := by
  have wellFormed : WellFormed numberedLanguage := {
    keys := by simp [numberedLanguage, Entries.Distinct]
    rows := by simp [numberedLanguage] }
  have shown : (Tables.merge {} numberedLanguage >>= fun merged =>
      (fun again => (merged.vendoredLanguages, again.vendoredLanguages)) <$>
        merged.merge numberedLanguage).toOption = some (["1"], ["1", "1"]) := by
    decide +kernel
  rcases Except.exists_of_bind_eq_ok (Except.toOption_eq_some_iff.mp shown) with
    ⟨merged, merges, shown⟩
  rcases Except.exists_of_map_eq_ok shown with ⟨again, mergesAgain, languages⟩
  refine ⟨merged, again, reachable_empty, wellFormed, merges, mergesAgain, ?_⟩
  rintro rfl
  rcases Prod.mk.inj languages with ⟨once, twice⟩
  cases once.symm.trans twice

end Tables

end FormulaLint
