import FormulaLint.Proofs.Dictionaries
import FormulaLint.Proofs.LayeredDocuments

/-! Tables of phrases and the documents that they are read from. What such a table supplies is a
text as long as no document lists something under its key; a list is taken as it stands. -/

namespace FormulaLint

/-! ## Dictionaries and mappings -/

namespace Dictionary

variable {α : Type} {dictionary : Dictionary α}

private theorem mem_foldl_put {pairs : List (String × α)} {entry : String × α}
    (member : entry ∈
      pairs.foldl (fun dictionary pair => put pair.1 pair.2 dictionary) dictionary) :
    entry ∈ pairs ∨ entry ∈ dictionary := by
  induction pairs generalizing dictionary with
  | nil => exact .inr member
  | cons pair rest induction =>
      rcases induction member with later | before
      · exact .inl (List.mem_cons_of_mem pair later)
      · rcases mem_put before with new | old
        · exact .inl (new ▸ List.mem_cons_self)
        · exact .inr old

private theorem mem_ofPairs {pairs : List (String × α)} {entry : String × α}
    (member : entry ∈ ofPairs pairs) : entry ∈ pairs :=
  (mem_foldl_put member).resolve_right List.not_mem_nil

def AllTexts (dictionary : Dictionary Phrase) : Prop :=
  ∀ name phrase, dictionary.get? name = some phrase → phrase.text?.isSome = true

theorem allTexts_of_forall_mem {dictionary : Dictionary Phrase}
    (texts : ∀ entry ∈ dictionary, entry.2.text?.isSome = true) : dictionary.AllTexts := by
  intro name phrase found
  rcases Option.map_eq_some_iff.mp found with ⟨entry, has, rfl⟩
  exact texts entry (List.mem_of_find?_eq_some has)

end Dictionary

namespace Scalar

variable {key : Scalar} {name : String}

theorem same_text_iff : key.same (.text name) = true ↔ key = .text name := by
  cases key <;> simp [same, tenths?]

theorem text_same_iff : (Scalar.text name).same key = true ↔ key = .text name := by
  cases key with
  | text value =>
      simp only [same, tenths?, beq_iff_eq]
      exact eq_comm
  | _ => simp [same, tenths?]

end Scalar

namespace Entries

variable {entries : Entries} {name : String} {property : Value → Prop}

def Under (entries : Entries) (name : String) (property : Value → Prop) : Prop :=
  ∀ entry ∈ entries, entry.1 = .text name → property entry.2

theorem Under.put {key : Scalar} {value : Value} (under : entries.Under name property)
    (given : key = .text name → property value) :
    Under (Entries.put key value entries) name property := by
  induction entries with
  | nil =>
      intro entry member named
      rw [List.mem_singleton.mp member] at named ⊢
      exact given named
  | cons head rest induction =>
      rcases List.forall_mem_cons.mp under with ⟨first, later⟩
      intro entry member named
      rw [Entries.put] at member
      split at member
      · next same =>
          rcases List.mem_cons.mp member with rfl | inRest
          · rw [named] at same
            exact given (Scalar.text_same_iff.mp same)
          · exact later entry inRest named
      · rcases List.mem_cons.mp member with rfl | inRest
        · exact first named
        · exact induction later entry inRest named

theorem Under.of_get? {value : Value} (under : entries.Under name property)
    (found : entries.get? name = some value) : property value := by
  rcases Option.map_eq_some_iff.mp found with ⟨entry, has, rfl⟩
  have same := List.find?_some has
  exact under entry (List.mem_of_find?_eq_some has) (Scalar.same_text_iff.mp same)

private theorem value_of_mem_put {key : Scalar} {value : Value} {row : Scalar × Value}
    (member : row ∈ Entries.put key value entries) : row.2 = value ∨ row ∈ entries := by
  induction entries with
  | nil => exact .inl (congrArg Prod.snd (List.mem_singleton.mp member))
  | cons head rest induction =>
      rw [Entries.put] at member
      split at member
      · rcases List.mem_cons.mp member with rfl | later
        · exact .inl rfl
        · exact .inr (List.mem_cons_of_mem head later)
      · rcases List.mem_cons.mp member with rfl | later
        · exact .inr List.mem_cons_self
        · rcases induction later with new | old
          · exact .inl new
          · exact .inr (List.mem_cons_of_mem head old)

theorem value_of_mem_putAll {additions : Entries} {row : Scalar × Value}
    (member : row ∈ Entries.putAll entries additions) :
    (∃ given ∈ additions, row.2 = given.2) ∨ row ∈ entries := by
  induction additions generalizing entries with
  | nil => exact .inr member
  | cons addition rest induction =>
      rcases induction member with ⟨given, later, equal⟩ | before
      · exact .inl ⟨given, List.mem_cons_of_mem addition later, equal⟩
      · rcases value_of_mem_put before with new | old
        · exact .inl ⟨addition, List.mem_cons_self, new⟩
        · exact .inr old

end Entries

/-! ## Values without lists -/

def Value.ListsNothing (value : Value) : Prop :=
  ∀ rows, value = .mapping rows → ∀ row ∈ rows, ∀ items, row.2 ≠ .list items

theorem Value.listsNothing_mapping_iff {rows : Entries} :
    (Value.mapping rows).ListsNothing ↔ ∀ row ∈ rows, ∀ items, row.2 ≠ .list items := by
  constructor
  · exact fun nothing => nothing rows rfl
  · rintro plain others equal
    rwa [← Value.mapping.inj equal]

namespace Tables

private theorem listsNothing_layerValue {current : Option Value} {value : Value}
    (before : ∀ held, current = some held → held.ListsNothing) (given : value.ListsNothing) :
    (layerValue current value).ListsNothing := by
  unfold layerValue
  split
  · next rows additions =>
      refine Value.listsNothing_mapping_iff.mpr fun row member items => ?_
      rcases Entries.value_of_mem_putAll member with ⟨addition, new, same⟩ | old
      · rw [same]
        exact given additions rfl addition new items
      · exact before _ rfl rows rfl row old items
  · nofun
  · exact given

private theorem listsNothing_layerEntries {base additions : Entries} {name : String}
    (before : base.Under name Value.ListsNothing)
    (given : additions.Under name Value.ListsNothing) :
    (layerEntries base additions).Under name Value.ListsNothing := by
  unfold layerEntries
  induction additions generalizing base with
  | nil => exact before
  | cons addition rest induction =>
      rcases List.forall_mem_cons.mp given with ⟨first, later⟩
      refine induction (before.put ?_) later
      intro named
      refine listsNothing_layerValue ?_ (first named)
      intro held found
      rw [named] at found
      exact before.of_get? found

/-! ## Reading and writing -/

private theorem isText_of_readEntry {key : String} {row : Scalar × Value} {entry : String × Phrase}
    (made : readEntry key Phrase.ofValue? row = .ok entry)
    (single : ∀ items, row.2 ≠ .list items) : entry.2.text?.isSome = true := by
  rw [readEntry] at made
  split at made
  · next phrase read =>
      cases made
      cases value : row.2 with
      | scalar single =>
          rw [value] at read
          cases single with
          | text text =>
              cases read
              rfl
          | _ => cases read
      | list items => exact absurd value (single items)
      | mapping entries =>
          rw [value] at read
          cases read
  · cases made

theorem isText_of_readMapping {document : Entries} {key : String} {dictionary : Dictionary Phrase}
    (under : document.Under key Value.ListsNothing)
    (made : readMapping document key Phrase.ofValue? = .ok dictionary) :
    ∀ entry ∈ dictionary, entry.2.text?.isSome = true := by
  intro entry member
  rw [readMapping] at made
  split at made
  · cases made
    cases member
  · next rows present =>
      have stands : document.get? key = some (.mapping rows) :=
        (Option.filter_eq_some_iff.mp present).1
      have plain := under.of_get? stands rows rfl
      cases pairs : rows.mapM (readEntry key Phrase.ofValue?) with
      | error fault =>
          rw [pairs] at made
          cases made
      | ok entries =>
          rw [pairs] at made
          cases made
          rcases (Except.mem_iff_of_mapM_eq_ok pairs).mp (Dictionary.mem_ofPairs member) with
            ⟨row, listed, read⟩
          exact isText_of_readEntry read (plain row listed)
  · cases made

private theorem listsNothing_mappingValue {dictionary : Dictionary Phrase}
    (texts : ∀ entry ∈ dictionary, entry.2.text?.isSome = true) :
    (mappingValue Phrase.toValue dictionary).ListsNothing := by
  refine Value.listsNothing_mapping_iff.mpr fun row member items listed => ?_
  rcases List.mem_map.mp member with ⟨entry, inTable, rfl⟩
  have isText := texts entry inTable
  cases phrase : entry.2 with
  | text value =>
      rw [phrase] at listed
      cases listed
  | items values =>
      rw [phrase] at isText
      cases isText

/-- A table of phrases: its key in documents, its place among the tables that are read from one and
written to one, and that the packaged document lists nothing in it. -/
structure PhraseTable where
  key : String
  rows : Tables → Dictionary Phrase
  read : ∀ document tables, ofDocument document = .ok tables →
    readMapping document key Phrase.ofValue? = .ok (rows tables)
  written : ∀ tables : Tables,
    Entries.Under tables.toDocument key (· = mappingValue Phrase.toValue (rows tables))
  packaged : Packaged.tables.Under key Value.ListsNothing

theorem read_of_ofDocument {document : Entries} {tables : Tables}
    (made : ofDocument document = .ok tables) :
    readMapping document "deprecated_env_methods" Phrase.ofValue? =
        .ok tables.deprecatedEnvironmentMethods ∧
      readMapping document "deprecated_constants" Phrase.ofValue? =
        .ok tables.deprecatedConstants := by
  rcases Except.exists_of_bind_eq_ok made with ⟨dependencies, -, made⟩
  rcases Except.exists_of_bind_eq_ok made with ⟨comments, -, made⟩
  rcases Except.exists_of_bind_eq_ok made with ⟨fileMethods, -, made⟩
  rcases Except.exists_of_bind_eq_ok made with ⟨compilers, -, made⟩
  rcases Except.exists_of_bind_eq_ok made with ⟨shortcuts, -, made⟩
  rcases Except.exists_of_bind_eq_ok made with ⟨patterns, -, made⟩
  rcases Except.exists_of_bind_eq_ok made with ⟨languages, -, made⟩
  rcases Except.exists_of_bind_eq_ok made with ⟨commands, -, made⟩
  rcases Except.exists_of_bind_eq_ok made with ⟨tags, -, made⟩
  rcases Except.exists_of_bind_eq_ok made with ⟨checks, -, made⟩
  rcases Except.exists_of_bind_eq_ok made with ⟨messages, messagesRead, made⟩
  rcases Except.exists_of_bind_eq_ok made with ⟨constants, constantsRead, made⟩
  cases made
  exact ⟨messagesRead, constantsRead⟩

def environmentMessages : PhraseTable where
  key := "deprecated_env_methods"
  rows := (·.deprecatedEnvironmentMethods)
  read _ _ made := (read_of_ofDocument made).1
  written tables := by simp [Entries.Under, toDocument]
  packaged := by
    simp [Entries.Under, Packaged.tables, Packaged.table, Value.listsNothing_mapping_iff]

def constantReplacements : PhraseTable where
  key := "deprecated_constants"
  rows := (·.deprecatedConstants)
  read _ _ made := (read_of_ofDocument made).2
  written tables := by simp [Entries.Under, toDocument]
  packaged := by
    simp [Entries.Under, Packaged.tables, Packaged.table, Value.listsNothing_mapping_iff]

end Tables

/-! ## Layers -/

namespace Tables.PhraseTable

variable (table : PhraseTable)

def RowsAreTexts (tables : Tables) : Prop :=
  ∀ entry ∈ table.rows tables, entry.2.text?.isSome = true

theorem rowsAreTexts_ofDocument {document : Entries} {tables : Tables}
    (under : document.Under table.key Value.ListsNothing)
    (made : ofDocument document = .ok tables) : table.RowsAreTexts tables :=
  isText_of_readMapping under (table.read document tables made)

private theorem rowsAreTexts_merge {tables merged : Tables} {document : Entries}
    (texts : table.RowsAreTexts tables) (under : document.Under table.key Value.ListsNothing)
    (made : tables.merge document = .ok merged) : table.RowsAreTexts merged := by
  refine table.rowsAreTexts_ofDocument (listsNothing_layerEntries ?_ under) made
  intro entry member named
  rw [table.written tables entry member named]
  exact listsNothing_mappingValue texts

private theorem rowsAreTexts_layer {configuration layered : Configuration} {document : Entries}
    (texts : table.RowsAreTexts configuration.tables)
    (under : document.Under table.key Value.ListsNothing)
    (made : configuration.layer document = .ok layered) : table.RowsAreTexts layered.tables := by
  rcases Configuration.tables_of_layer made with same | merges
  · rw [RowsAreTexts, same]
    exact texts
  · refine table.rowsAreTexts_merge texts ?_ merges
    intro entry member named
    exact under entry (List.mem_filter.mp member).1 named

private theorem rowsAreTexts_foldlM {configuration layered : Configuration}
    {documents : List Entries}
    (texts : table.RowsAreTexts configuration.tables)
    (under : ∀ document ∈ documents, document.Under table.key Value.ListsNothing)
    (made : documents.foldlM Configuration.layer configuration = .ok layered) :
    table.RowsAreTexts layered.tables := by
  refine Except.holds_of_foldlM_eq_ok (table.RowsAreTexts ·.tables) made texts ?_
  intro document listed reached next sofar layers
  exact table.rowsAreTexts_layer sofar (under document listed) layers

end Tables.PhraseTable

namespace Configuration

def layered? (documents : List Entries) : Except ConfigFault Configuration := do
  documents.foldlM layer (← packaged)

private theorem exists_foldlM_of_addLayers {languages : Languages} {disk : Disk} {paths : List Path}
    {base configuration : Configuration}
    (made : (base.addLayers languages disk paths).1 = .ok configuration) :
    ∃ documents : List Entries, documents.foldlM layer base = .ok configuration := by
  rw [fst_addLayers] at made
  induction paths generalizing base with
  | nil =>
      cases made
      exact ⟨[], rfl⟩
  | cons path rest induction =>
      rw [List.foldlM_cons] at made
      rcases Except.exists_of_bind_eq_ok made with ⟨next, first, made⟩
      rcases exists_layer_of_withDocument first with ⟨document, -, layers⟩
      rcases induction made with ⟨documents, later⟩
      refine ⟨document :: documents, ?_⟩
      rw [List.foldlM_cons, layers]
      exact later

theorem exists_layered?_of_load {languages : Languages} {disk : Disk} {paths : List Path}
    {configuration : Configuration} {noticed : List Notice}
    (made : load languages disk paths = (.ok configuration, noticed)) :
    ∃ documents, layered? documents = .ok configuration := by
  rcases exists_packaged with ⟨base, starts⟩
  rw [load_eq starts] at made
  rcases exists_foldlM_of_addLayers (congrArg Prod.fst made) with ⟨documents, layers⟩
  refine ⟨documents, ?_⟩
  unfold layered?
  rw [starts]
  exact layers

theorem ofDocument_of_packaged {configuration : Configuration}
    (made : packaged = .ok configuration) :
    Tables.ofDocument Packaged.tables = .ok configuration.tables := by
  unfold packaged at made
  rcases Except.exists_of_bind_eq_ok made with ⟨tables, reads, made⟩
  rcases Except.exists_of_bind_eq_ok made with ⟨policy, -, made⟩
  cases made
  exact reads

theorem rowsAreTexts_layered? {table : Tables.PhraseTable} {documents : List Entries}
    {configuration : Configuration}
    (under : ∀ document ∈ documents, document.Under table.key Value.ListsNothing)
    (made : layered? documents = .ok configuration) :
    table.RowsAreTexts configuration.tables := by
  rcases Except.exists_of_bind_eq_ok made with ⟨base, starts, made⟩
  have reads := ofDocument_of_packaged starts
  exact table.rowsAreTexts_foldlM (table.rowsAreTexts_ofDocument table.packaged reads) under made

end Configuration

end FormulaLint
