import FormulaLint.Proofs.Dictionaries
import FormulaLint.Proofs.PhraseTables

/-! The kinds of tables. Five tables are mappings, three are lists, and three are sets. A table of any
kind is read from what a document has under its key and from nothing else. -/

namespace FormulaLint

namespace Dictionary

variable {α β : Type} {make : α → Option β} {pairs : List (String × α)}
variable {results : List (String × β)}

/-- A pair comes from another of the same name by a step that can fail. -/
def MadeBy (make : α → Option β) (pair : String × α) (result : String × β) : Prop :=
  result.1 = pair.1 ∧ make pair.2 = some result.2

theorem get?_of_madeBy (made : List.Forall₂ (MadeBy make) pairs results) (name : String) :
    get? results name = (get? pairs name).bind make := by
  induction made with
  | nil => rfl
  | @cons pair result pairs results first _ induction =>
      rw [← List.singleton_append, get?_append, get?_singleton, induction,
        ← List.singleton_append (x := pair), get?_append, get?_singleton, first.1]
      split
      · rw [Option.some_or, Option.some_or, Option.bind_some, first.2]
      · rw [Option.none_or, Option.none_or]

theorem names_of_madeBy (made : List.Forall₂ (MadeBy make) pairs results) :
    names results = names pairs := by
  induction made with
  | nil => rfl
  | cons first _ induction => rw [names_cons, names_cons, first.1, induction]

end Dictionary

/-! ## Reading what stands under a key -/

namespace Tables

variable {document other : Entries} {key : String}

theorem readMapping_of_mapping {α : Type} {reads : Value → Option α} {rows : Entries}
    (found : document.get? key = some (.mapping rows)) :
    readMapping document key reads = Dictionary.ofPairs <$> rows.mapM (readEntry key reads) := by
  unfold readMapping present?
  rw [found]
  cases rows <;> rfl

theorem readMapping_congr {α : Type} (reads : Value → Option α)
    (same : document.get? key = other.get? key) :
    readMapping document key reads = readMapping other key reads := by
  unfold readMapping present?
  rw [same]

theorem readList_of_list {items : List Value} (found : document.get? key = some (.list items)) :
    readList document key = .ok (items.map (·.display)) := by
  unfold readList present?
  rw [found]
  cases items <;> rfl

theorem readList_congr (same : document.get? key = other.get? key) :
    readList document key = readList other key := by
  unfold readList present?
  rw [same]

/-! ## Mappings -/

/-- A table of the mapping kind: its key in documents, how a value becomes a row in two steps, how a
row is written, and the place of the rows among all tables. The name of a row matters in faults only,
and a row that is written is read as before. -/
structure MappingTable where
  key : String
  Raw : Type
  Row : Type
  reads : Value → Option Raw
  finish : String → Raw → Except ConfigFault Row
  write : Row → Value
  rows : Tables → Dictionary Row
  steady : ∀ {name other raw row}, finish name raw = .ok row → finish other raw = .ok row
  restores : ∀ {name value raw row}, reads value = some raw → finish name raw = .ok row →
    ∃ again, reads (write row) = some again ∧ finish name again = .ok row

namespace MappingTable

variable (table : MappingTable)

def finishEntry (entry : String × table.Raw) : Except ConfigFault (String × table.Row) :=
  (fun row => (entry.1, row)) <$> table.finish entry.1 entry.2

def read (document : Entries) : Except ConfigFault (Dictionary table.Row) := do
  let entries ← readMapping document table.key table.reads
  entries.mapM table.finishEntry

def settle (value : Value) : Option table.Row :=
  (table.reads value).bind fun raw => (table.finish "" raw).toOption

def written (dictionary : Dictionary table.Row) : Entries :=
  dictionary.map fun entry => (.text entry.1, table.write entry.2)

end MappingTable

theorem readEntry_eq_ok_iff {α : Type} {reads : Value → Option α} {row : Scalar × Value}
    {entry : String × α} :
    readEntry key reads row = .ok entry ↔
      Dictionary.MadeBy reads (row.1.display, row.2) entry := by
  unfold readEntry Dictionary.MadeBy
  cases reads row.2 with
  | none => exact iff_of_false nofun fun both => nomatch both.2
  | some item =>
      constructor
      · intro made
        cases made
        exact ⟨rfl, rfl⟩
      · rintro ⟨name, same⟩
        cases same
        exact congrArg Except.ok (Prod.ext name.symm rfl)

def namedRows (rows : Entries) : List (String × Value) :=
  rows.map fun row => (row.1.display, row.2)

namespace MappingTable

variable {table : MappingTable} {rows : Entries} {dictionary : Dictionary table.Row}

/-- What the rows of a mapping come to: each value can be read, the names stand in the order of
their first appearance, and the value that a name has last becomes its row. -/
structure Settles (table : MappingTable) (rows : Entries) (dictionary : Dictionary table.Row) :
    Prop where
  readable : ∀ row ∈ rows, (table.reads row.2).isSome = true
  names : dictionary.names = ((namedRows rows).map (·.1)).eraseDups
  settled : ∀ name,
    dictionary.get? name = (Dictionary.last? (namedRows rows) name).bind table.settle

theorem Settles.unique {other : Dictionary table.Row} (settles : table.Settles rows dictionary)
    (again : table.Settles rows other) : dictionary = other := by
  apply Dictionary.eq_of_get?_eq
  · rw [settles.names]
    exact nodup_eraseDups _
  · rw [settles.names, again.names]
  · intro name
    rw [settles.settled, again.settled]

theorem finish_eq_ok_iff (name : String) {raw : table.Raw} {row : table.Row} :
    table.finish name raw = .ok row ↔ (table.finish "" raw).toOption = some row := by
  rw [Except.toOption_eq_some_iff]
  exact ⟨table.steady, table.steady⟩

theorem finishEntry_eq_ok_iff {entry : String × table.Raw} {result : String × table.Row} :
    table.finishEntry entry = .ok result ↔
      Dictionary.MadeBy (fun raw => (table.finish "" raw).toOption) entry result := by
  rw [Dictionary.MadeBy, ← finish_eq_ok_iff entry.1, finishEntry]
  cases table.finish entry.1 entry.2 with
  | error fault => exact iff_of_false nofun fun both => nomatch both.2
  | ok row =>
      constructor
      · intro made
        cases made
        exact ⟨rfl, rfl⟩
      · rintro ⟨name, same⟩
        cases same
        rw [← name]
        rfl

variable {document : Entries}

theorem madeBy_of_readEntries {key : String} {entries : List (String × table.Raw)}
    (made : rows.mapM (readEntry key table.reads) = .ok entries) :
    List.Forall₂ (Dictionary.MadeBy table.reads) (namedRows rows) entries :=
  List.forall₂_map_left_iff.mpr
    ((Except.mapM_eq_ok_iff.mp made).imp fun _ _ => readEntry_eq_ok_iff.mp)

/-- The rows are settled in two passes: each value is read, then the last one of each name is
finished. -/
theorem settled_of_entries {entries : List (String × table.Raw)}
    (read : List.Forall₂ (Dictionary.MadeBy table.reads) (namedRows rows) entries) (name : String) :
    ((Dictionary.ofPairs entries).get? name).bind (fun raw => (table.finish "" raw).toOption) =
      (Dictionary.last? (namedRows rows) name).bind table.settle := by
  rw [Dictionary.get?_ofPairs, Dictionary.last?,
    Dictionary.get?_of_madeBy (List.forall₂_reverse_iff.mpr read), Option.bind_assoc]
  rfl

theorem names_of_entries {entries : List (String × table.Raw)}
    (read : List.Forall₂ (Dictionary.MadeBy table.reads) (namedRows rows) entries) :
    (Dictionary.ofPairs entries).names = ((namedRows rows).map (·.1)).eraseDups := by
  rw [Dictionary.names_ofPairs]
  exact congrArg List.eraseDups (Dictionary.names_of_madeBy read)

theorem settles_of_read (found : document.get? table.key = some (.mapping rows))
    (made : table.read document = .ok dictionary) : table.Settles rows dictionary := by
  unfold read at made
  rw [readMapping_of_mapping found] at made
  rcases Except.exists_of_bind_eq_ok made with ⟨raws, rawsMade, made⟩
  rcases Except.exists_of_map_eq_ok rawsMade with ⟨entries, entriesMade, rfl⟩
  have read := madeBy_of_readEntries entriesMade
  have finished := (Except.mapM_eq_ok_iff.mp made).imp fun _ _ => finishEntry_eq_ok_iff.mp
  refine { readable := ?_, names := ?_, settled := ?_ }
  · intro row member
    rcases Except.exists_of_mapM_eq_ok entriesMade member with ⟨entry, made⟩
    rw [(readEntry_eq_ok_iff.mp made).2]
    rfl
  · rw [Dictionary.names_of_madeBy finished, names_of_entries read]
  · intro name
    rw [Dictionary.get?_of_madeBy finished, settled_of_entries read]

theorem exists_read_of_settles (found : document.get? table.key = some (.mapping rows))
    (settles : table.Settles rows dictionary) : ∃ made, table.read document = .ok made := by
  have readable : ∀ row ∈ rows, ∃ entry, readEntry table.key table.reads row = .ok entry := by
    intro row member
    rcases Option.isSome_iff_exists.mp (settles.readable row member) with ⟨raw, reads⟩
    exact ⟨(row.1.display, raw), readEntry_eq_ok_iff.mpr ⟨rfl, reads⟩⟩
  rcases Except.exists_mapM_eq_ok readable with ⟨entries, entriesMade⟩
  have read := madeBy_of_readEntries entriesMade
  unfold MappingTable.read
  rw [readMapping_of_mapping found, entriesMade]
  apply Except.exists_mapM_eq_ok
  intro entry member
  have known : (dictionary.get? entry.1).isSome = true := by
    rw [Dictionary.isSome_get?_iff, settles.names, ← names_of_entries read]
    exact List.mem_map_of_mem member
  rw [settles.settled, ← settled_of_entries read,
    Dictionary.get?_of_mem (Dictionary.nodup_names_ofPairs entries) member, Option.bind_some] at known
  rcases Option.isSome_iff_exists.mp known with ⟨row, finishes⟩
  exact ⟨(entry.1, row), finishEntry_eq_ok_iff.mpr ⟨rfl, finishes⟩⟩

/-- A mapping is read into a dictionary just if its rows come to it. -/
theorem read_eq_ok_iff (found : document.get? table.key = some (.mapping rows)) :
    table.read document = .ok dictionary ↔ table.Settles rows dictionary := by
  constructor
  · exact settles_of_read found
  · intro settles
    rcases exists_read_of_settles found settles with ⟨made, read⟩
    rw [read, settles.unique (settles_of_read found read)]

end MappingTable

theorem readShortcut_written {value : Value} {pattern : Pattern}
    (made : readShortcut value = .ok pattern) :
    readShortcut (.text pattern.text) = .ok pattern := by
  unfold readShortcut at made ⊢
  cases outcome : Pattern.ofText value.display with
  | error fault =>
      rw [outcome] at made
      cases made
  | ok known =>
      have kept : known.text = value.display := by
        unfold Pattern.ofText at outcome
        split at outcome <;> cases outcome
        rfl
      simp only [outcome] at made
      split at made
      · next named =>
          cases made
          have shownAlike : (Value.text pattern.text).display = value.display := kept
          simp only [shownAlike, outcome, named, if_true]
      · cases made

def patternsOf (name : String) : Phrase → Except ConfigFault (List Pattern)
  | .items values => values.mapM readShortcut
  | .text _ => .error (.shortcutsNotList name)

theorem patternsOf_written {name : String} {phrase : Phrase} {patterns : List Pattern}
    (made : patternsOf name phrase = .ok patterns) :
    patternsOf name (.items (patterns.map fun pattern => .text pattern.text)) = .ok patterns := by
  cases phrase with
  | text value => cases made
  | items values =>
      have read := Except.mapM_eq_ok_iff.mp made
      refine Except.mapM_eq_ok_iff.mpr (List.forall₂_map_left_iff.mpr (List.forall₂_same.mpr ?_))
      intro pattern member
      rcases (Except.mem_iff_of_mapM_eq_ok made).mp member with ⟨value, -, reads⟩
      exact readShortcut_written reads

def dependencyTable : MappingTable where
  key := "deprecated_dependencies"
  Raw := Option Phrase
  Row := Option Phrase
  reads := optionalPhrase
  finish _ row := .ok row
  write := optionalPhraseValue
  rows := (·.deprecatedDependencies)
  steady made := made
  restores {_ _ raw _} _ made := by
    cases made
    match raw with
    | none => exact ⟨_, rfl, rfl⟩
    | some (.text _) => exact ⟨_, rfl, rfl⟩
    | some (.items _) => exact ⟨_, rfl, rfl⟩

def compilerTable : MappingTable where
  key := "compilers"
  Raw := Phrase
  Row := List String
  reads := Phrase.ofValue?
  finish _ phrase := .ok (namesOf phrase)
  write := listValue
  rows := (·.compilers)
  steady made := made
  restores {_ _ _ row} _ _ := by
    refine ⟨.items (row.map Value.text), rfl, ?_⟩
    simp [namesOf, Value.display, Scalar.display, Function.comp_def]

def shortcutTable : MappingTable where
  key := "path_shortcuts"
  Raw := Phrase
  Row := List Pattern
  reads := Phrase.ofValue?
  finish := patternsOf
  write patterns := listValue (patterns.map (·.text))
  rows := (·.pathShortcuts)
  steady {_ _ phrase _} made := by
    cases phrase with
    | text value => cases made
    | items values => exact made
  restores {_ _ _ patterns} _ made := by
    refine ⟨.items (patterns.map fun pattern => .text pattern.text), ?_, patternsOf_written made⟩
    simp [listValue, Phrase.ofValue?]

def phraseTable (key : String) (rows : Tables → Dictionary Phrase) : MappingTable where
  key := key
  Raw := Phrase
  Row := Phrase
  reads := Phrase.ofValue?
  finish _ phrase := .ok phrase
  write := Phrase.toValue
  rows := rows
  steady made := made
  restores {_ _ _ phrase} _ _ := ⟨phrase, phrase.ofValue_toValue, rfl⟩

def mappingTables : List MappingTable :=
  [dependencyTable, compilerTable, shortcutTable,
    phraseTable "deprecated_env_methods" (·.deprecatedEnvironmentMethods),
    phraseTable "deprecated_constants" (·.deprecatedConstants)]

/-! ## Lists and sets -/

structure NameTable where
  key : String
  names : Tables → List String

def listTables : List NameTable :=
  [⟨"template_comments", (·.templateComments)⟩, ⟨"vendored_languages", (·.vendoredLanguages)⟩,
    ⟨"environment_commands", (·.environmentCommands)⟩]

def setTables : List NameTable :=
  [⟨"fileutils_methods", (·.fileMethods)⟩, ⟨"dependency_tags", (·.dependencyTags)⟩,
    ⟨"legacy_macos_checks", (·.legacySystemChecks)⟩]

/-! ## All tables of a document -/

structure AreReadFrom (tables : Tables) (document : Entries) : Prop where
  mappings : ∀ table ∈ mappingTables, table.read document = .ok (table.rows tables)
  lists : ∀ table ∈ listTables, readList document table.key = .ok (table.names tables)
  sets : ∀ table ∈ setTables,
    sortedSet <$> readList document table.key = .ok (table.names tables)

theorem MappingTable.read_of_finish (table : MappingTable) (make : table.Raw → table.Row)
    (finish : ∀ name raw, table.finish name raw = .ok (make raw)) (document : Entries) :
    table.read document =
      (·.mapValues make) <$> readMapping document table.key table.reads := by
  unfold read
  cases readMapping document table.key table.reads with
  | error fault => rfl
  | ok entries =>
      refine Except.mapM_eq_ok_iff.mpr (List.forall₂_map_right_iff.mpr (List.forall₂_same.mpr ?_))
      intro entry _
      rw [finishEntry, finish]
      rfl

theorem mapValues_id {α : Type} (outcome : Except ConfigFault (Dictionary α)) :
    (·.mapValues id) <$> outcome = outcome := by
  cases outcome with
  | error fault => rfl
  | ok dictionary => exact congrArg Except.ok (List.map_id dictionary)

theorem read_dependencyTable (document : Entries) :
    dependencyTable.read document = readMapping document "deprecated_dependencies" optionalPhrase :=
  (dependencyTable.read_of_finish id (fun _ _ => rfl) document).trans (mapValues_id _)

theorem read_compilerTable (document : Entries) :
    compilerTable.read document =
      (·.mapValues namesOf) <$> readMapping document "compilers" Phrase.ofValue? :=
  compilerTable.read_of_finish namesOf (fun _ _ => rfl) document

theorem read_phraseTable (key : String) (rows : Tables → Dictionary Phrase) (document : Entries) :
    (phraseTable key rows).read document = readMapping document key Phrase.ofValue? :=
  ((phraseTable key rows).read_of_finish id (fun _ _ => rfl) document).trans (mapValues_id _)

theorem read_shortcutTable (document : Entries) :
    shortcutTable.read document =
      readMapping document "path_shortcuts" Phrase.ofValue? >>= (·.mapM readShortcuts) := by
  have entries : shortcutTable.finishEntry = readShortcuts := by
    funext ⟨name, phrase⟩
    cases phrase <;> rfl
  unfold MappingTable.read
  rw [entries]
  rfl

theorem areReadFrom_of_ofDocument {document : Entries} {tables : Tables}
    (made : ofDocument document = .ok tables) : tables.AreReadFrom document := by
  rcases Except.exists_of_bind_eq_ok made with ⟨dependencies, dependenciesRead, made⟩
  rcases Except.exists_of_bind_eq_ok made with ⟨comments, commentsRead, made⟩
  rcases Except.exists_of_bind_eq_ok made with ⟨fileMethods, fileMethodsRead, made⟩
  rcases Except.exists_of_bind_eq_ok made with ⟨compilers, compilersRead, made⟩
  rcases Except.exists_of_bind_eq_ok made with ⟨shortcuts, shortcutsRead, made⟩
  rcases Except.exists_of_bind_eq_ok made with ⟨patterns, patternsRead, made⟩
  rcases Except.exists_of_bind_eq_ok made with ⟨languages, languagesRead, made⟩
  rcases Except.exists_of_bind_eq_ok made with ⟨commands, commandsRead, made⟩
  rcases Except.exists_of_bind_eq_ok made with ⟨tags, tagsRead, made⟩
  rcases Except.exists_of_bind_eq_ok made with ⟨checks, checksRead, made⟩
  rcases Except.exists_of_bind_eq_ok made with ⟨messages, messagesRead, made⟩
  rcases Except.exists_of_bind_eq_ok made with ⟨constants, constantsRead, made⟩
  cases made
  refine { mappings := ?_, lists := ?_, sets := ?_ }
  · simp only [mappingTables, List.forall_mem_cons]
    refine ⟨?_, ?_, ?_, ?_, ?_, List.forall_mem_nil _⟩
    · exact (read_dependencyTable document).trans dependenciesRead
    · rw [read_compilerTable, compilersRead]
      rfl
    · rw [read_shortcutTable, shortcutsRead]
      exact patternsRead
    · exact (read_phraseTable _ _ document).trans messagesRead
    · exact (read_phraseTable _ _ document).trans constantsRead
  · simp only [listTables, List.forall_mem_cons]
    exact ⟨commentsRead, languagesRead, commandsRead, List.forall_mem_nil _⟩
  · simp only [setTables, List.forall_mem_cons, fileMethodsRead, tagsRead, checksRead]
    exact ⟨rfl, rfl, rfl, List.forall_mem_nil _⟩

theorem ofDocument_of_areReadFrom {document : Entries} {tables : Tables}
    (read : tables.AreReadFrom document) : ofDocument document = .ok tables := by
  rcases read with ⟨mappings, lists, sets⟩
  simp only [mappingTables, List.forall_mem_cons] at mappings
  simp only [listTables, List.forall_mem_cons] at lists
  simp only [setTables, List.forall_mem_cons] at sets
  rcases mappings with ⟨dependencies, compilers, shortcuts, messages, constants, -⟩
  rcases lists with ⟨comments, languages, commands, -⟩
  rcases sets with ⟨fileMethods, tags, checks, -⟩
  rw [read_dependencyTable] at dependencies
  rw [read_compilerTable] at compilers
  rw [read_shortcutTable] at shortcuts
  rw [read_phraseTable] at messages constants
  rcases Except.exists_of_map_eq_ok compilers with ⟨compilerRows, compilersRead, compilersMade⟩
  rcases Except.exists_of_bind_eq_ok shortcuts with ⟨shortcutRows, shortcutsRead, shortcutsMade⟩
  rcases Except.exists_of_map_eq_ok fileMethods with ⟨methodNames, methodsRead, methodsMade⟩
  rcases Except.exists_of_map_eq_ok tags with ⟨tagNames, tagsRead, tagsMade⟩
  rcases Except.exists_of_map_eq_ok checks with ⟨checkNames, checksRead, checksMade⟩
  unfold ofDocument
  rw [dependencies, comments, methodsRead, compilersRead, shortcutsRead, languages, commands,
    tagsRead, checksRead, messages, constants]
  simp only [bind, Except.bind, pure, Except.pure, shortcutsMade, compilersMade, methodsMade,
    tagsMade, checksMade]
  rfl

/-- A document is read into tables just if each table is what its own key is read into. -/
theorem ofDocument_eq_ok_iff {document : Entries} {tables : Tables} :
    ofDocument document = .ok tables ↔ tables.AreReadFrom document :=
  ⟨areReadFrom_of_ofDocument, ofDocument_of_areReadFrom⟩

end Tables

end FormulaLint
