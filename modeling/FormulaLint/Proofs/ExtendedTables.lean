import FormulaLint.Proofs.LayeredTwice

/-! What a layer adds to tables. Where a document gives lists of texts and mappings of text keys,
the lists are continued, the sets united, and the mappings updated row by row; no name and no row is
lost, and what the document says elsewhere does not count. -/

namespace FormulaLint

private theorem exists_forall₂ {α β : Type} {related : α → β → Prop} {values : List α}
    (each : ∀ value ∈ values, ∃ result, related value result) :
    ∃ results, List.Forall₂ related values results := by
  induction values with
  | nil => exact ⟨[], .nil⟩
  | cons value rest induction =>
      rcases List.forall_mem_cons.mp each with ⟨⟨result, first⟩, later⟩
      rcases induction later with ⟨results, others⟩
      exact ⟨result :: results, .cons first others⟩

/-! ## Updated dictionaries -/

namespace Dictionary

variable {α β : Type} {dictionary changes : Dictionary α} {name : String}

/-- The rows that were there in their places, each with the value that it is given on top, and after
them the new rows. -/
def updated (dictionary changes : Dictionary α) : Dictionary α :=
  (dictionary.map fun entry => (entry.1, (changes.get? entry.1).getD entry.2)) ++
    changes.filter fun change => change.1 ∉ dictionary.names

theorem updated_nil (dictionary : Dictionary α) : dictionary.updated [] = dictionary :=
  (List.append_nil _).trans (List.map_id dictionary)

private theorem get?_filter_of_kept (keeps : String → Bool) (kept : keeps name = true) :
    get? (dictionary.filter fun entry => keeps entry.1) name = dictionary.get? name := by
  have same : ∀ entry : String × α,
      (keeps entry.1 = true ∧ decide (entry.1 = name) = true) ↔ entry.1 = name := by
    intro entry
    rw [decide_eq_true_eq]
    exact ⟨And.right, fun named => ⟨named ▸ kept, named⟩⟩
  simp only [get?, List.find?_filter, same]

theorem names_filter (keeps : String → Bool) :
    names (dictionary.filter fun entry => keeps entry.1) = dictionary.names.filter keeps :=
  List.filter_map.symm

theorem names_updated :
    (dictionary.updated changes).names =
      dictionary.names ++ changes.names.filter fun name => name ∉ dictionary.names := by
  rw [updated, names, List.map_append]
  exact congrArg₂ (· ++ ·)
    (names_map (fun name value => (changes.get? name).getD value) dictionary)
    (names_filter fun name => name ∉ dictionary.names)

private theorem nodup_names_updated (distinct : dictionary.names.Nodup)
    (fresh : changes.names.Nodup) :
    (dictionary.updated changes).names.Nodup := by
  rw [names_updated, List.nodup_append]
  refine ⟨distinct, fresh.filter _, ?_⟩
  rintro name known other new rfl
  exact of_decide_eq_true (List.mem_filter.mp new).2 known

theorem get?_updated (name : String) :
    (dictionary.updated changes).get? name = (changes.get? name).or (dictionary.get? name) := by
  rw [updated, get?_append,
    get?_map (fun name value => (changes.get? name).getD value) dictionary name]
  cases given : dictionary.get? name with
  | some value => cases changes.get? name <;> rfl
  | none =>
      have new : decide (name ∉ dictionary.names) = true :=
        decide_eq_true (get?_eq_none_iff.mp given)
      rw [get?_filter_of_kept (fun name => name ∉ dictionary.names) new, Option.map_none,
        Option.none_or, Option.or_none]

end Dictionary

namespace Tables

/-! ## Names that are given as texts -/

section

variable {names given : List String} {name : String}

private theorem any_same_map_text :
    (names.map Value.text).any (Value.text name).same = true ↔ name ∈ names := by
  rw [List.any_map, List.any_eq_true]
  constructor
  · rintro ⟨known, member, same⟩
    cases Value.text_same_iff.mp same
    exact member
  · exact fun member => ⟨name, member, Value.text_same_iff.mpr rfl⟩

theorem extended_texts (names given : List String) :
    extended names (given.map Value.text) =
      names ++ (given.filter fun name => name ∉ names).eraseDups := by
  induction given generalizing names with
  | nil =>
      rw [List.filter_nil, List.eraseDups_nil, List.append_nil]
      exact map_display_text names
  | cons name rest induction =>
      have step : extended names ((name :: rest).map Value.text) =
          extended (if name ∈ names then names else names ++ [name]) (rest.map Value.text) := by
        rw [extended, List.map_cons, extendList_cons, extended]
        by_cases known : name ∈ names
        · rw [if_pos known, if_pos (any_same_map_text.mpr known)]
        · rw [if_neg known, if_neg (mt any_same_map_text.mp known), List.map_append,
            List.map_singleton]
      rw [step, induction]
      by_cases known : name ∈ names
      · rw [if_pos known, List.filter_cons_of_neg (by simpa using known)]
      · rw [if_neg known, List.filter_cons_of_pos (by simpa using known), List.eraseDups_cons,
          List.filter_filter, List.append_assoc, List.singleton_append]
        have unseen : ∀ other ∈ rest, decide (other ∉ names ++ [name]) =
            (!other == name && decide (other ∉ names)) := by
          intro other _
          rw [Bool.eq_iff_iff]
          simp [and_comm]
        rw [List.filter_congr unseen]

theorem sortedSet_extended_texts (names given : List String) :
    sortedSet (extended names (given.map Value.text)) = sortedSet (names ++ given) := by
  apply sortedSet_eq
  intro name
  rw [extended_texts, List.mem_append, List.mem_append, List.mem_eraseDups, List.mem_filter]
  by_cases known : name ∈ names <;> simp [known]

end

/-! ## Rows that are given under texts -/

def textRows (pairs : Dictionary Value) : Entries :=
  pairs.map fun pair => (.text pair.1, pair.2)

section

variable {pairs : Dictionary Value}

theorem namedRows_textRows (pairs : Dictionary Value) : namedRows (textRows pairs) = pairs :=
  List.map_map.trans (List.map_id pairs)

private theorem withoutTextKeys_textRows (pairs : Dictionary Value) :
    withoutTextKeys (textRows pairs) = [] := by
  rw [withoutTextKeys, List.filter_eq_nil_iff]
  intro row member
  rcases List.mem_map.mp member with ⟨pair, -, rfl⟩
  exact Bool.false_ne_true

theorem distinct_textRows (distinct : pairs.names.Nodup) : (textRows pairs).Distinct :=
  distinct_textKeys id distinct

private theorem get?_textRows (name : String) : (textRows pairs).get? name = pairs.get? name := by
  have same : ∀ pair : String × Value,
      (Scalar.text pair.1).same (.text name) = decide (pair.1 = name) := by
    intro pair
    rw [Bool.eq_iff_iff, Scalar.same_text_iff, decide_eq_true_eq, Scalar.text.injEq]
  rw [Entries.get?, textRows, List.find?_map, Option.map_map, Dictionary.get?]
  simp only [Function.comp_def, same]

end

namespace MappingTable

variable {table : MappingTable} {dictionary rows : Dictionary table.Row}
variable {pairs : Dictionary Value}

/-- A name and a value make a row of a table: it is the only one of the tables that are read from
these two alone. -/
def ReadsRow (table : MappingTable) (pair : String × Value) (row : String × table.Row) : Prop :=
  ∃ alone, ofDocument [(.text table.key, .mapping (textRows [pair]))] = .ok alone ∧
    table.rows alone = [row]

private theorem madeBy_of_readsRow (listed : table ∈ mappingTables) {pair : String × Value}
    {row : String × table.Row} (reads : table.ReadsRow pair row) :
    Dictionary.MadeBy table.settle pair row := by
  rcases reads with ⟨alone, made, only⟩
  have read := (ofDocument_eq_ok_iff.mp made).mappings table listed
  have found : Entries.get? [(.text table.key, .mapping (textRows [pair]))] table.key =
      some (.mapping (textRows [pair])) := by
    simp [Entries.get?, Scalar.same_refl]
  have settles := settles_of_read found read
  have named : row.1 = pair.1 := by
    have names := settles.names
    rw [only, namedRows_textRows, List.map_singleton, eraseDups_eq_self (List.nodup_singleton _)]
      at names
    exact List.singleton_inj.mp names
  refine ⟨named, ?_⟩
  have settled := settles.settled pair.1
  rw [only, namedRows_textRows, Dictionary.get?_singleton, if_pos named] at settled
  rw [settled, Dictionary.last?, List.reverse_singleton, Dictionary.get?_singleton, if_pos rfl,
    Option.bind_some]

private theorem settled_of_madeBy (made : List.Forall₂ (Dictionary.MadeBy table.settle) pairs rows)
    {name : String} {value : Value} (given : pairs.get? name = some value) :
    (table.settle value).isSome = true ∧ rows.get? name = table.settle value := by
  have settled := Dictionary.get?_of_madeBy made name
  rw [given, Option.bind_some] at settled
  refine ⟨?_, settled⟩
  rw [← settled, Dictionary.isSome_get?_iff, Dictionary.names_of_madeBy made,
    ← Dictionary.isSome_get?_iff, given, Option.isSome_some]

private theorem names_putAll_textRows (canonical : table.Canonical dictionary)
    (fresh : pairs.names.Nodup) :
    (namedRows (Entries.putAll (table.written dictionary) (textRows pairs))).map (·.1) =
      dictionary.names ++ pairs.names.filter fun name => name ∉ dictionary.names := by
  have new : ∀ pair : String × Value,
      (!(table.written dictionary).has (.text pair.1)) = decide (pair.1 ∉ dictionary.names) := by
    intro pair
    rw [Bool.eq_iff_iff, Bool.not_eq_true', Bool.eq_false_iff, ne_eq, has_written,
      decide_eq_true_eq]
    simp only [Scalar.text.injEq, exists_eq_right']
  rw [names_putAll canonical.distinct (distinct_textRows fresh), textRows, List.filter_map,
    List.map_map, ← Dictionary.names_filter]
  simp only [Function.comp_def, new]
  rfl

/-- A mapping that is updated under texts is read as the updated dictionary. -/
theorem settles_putAll_textRows (canonical : table.Canonical dictionary)
    (fresh : pairs.names.Nodup)
    (made : List.Forall₂ (Dictionary.MadeBy table.settle) pairs rows) :
    table.Settles (Entries.putAll (table.written dictionary) (textRows pairs))
      (dictionary.updated rows) := by
  have sameNames : rows.names = pairs.names := Dictionary.names_of_madeBy made
  refine { readable := ?_, names := ?_, settled := ?_ }
  · intro row member
    rcases Entries.value_of_mem_putAll member with ⟨addition, given, equal⟩ | before
    · rcases List.mem_map.mp given with ⟨pair, listed, rfl⟩
      have settled := (settled_of_madeBy made (Dictionary.get?_of_mem fresh listed)).1
      rw [equal]
      exact Option.isSome_of_isSome_bind settled
    · exact canonical.settles.readable row before
  · rw [names_putAll_textRows canonical fresh, ← sameNames, ← Dictionary.names_updated,
      eraseDups_eq_self (Dictionary.nodup_names_updated canonical.distinct (sameNames ▸ fresh))]
  · intro name
    rw [Dictionary.get?_updated, last?_putAll canonical.distinct (distinct_textRows fresh),
      withoutTextKeys_textRows, namedRows_textRows, get?_textRows,
      Dictionary.last?_eq_get? fresh]
    cases given : pairs.get? name with
    | some value =>
        rcases settled_of_madeBy made given with ⟨known, settled⟩
        rcases Option.isSome_iff_exists.mp known with ⟨row, settles⟩
        rw [settled, settles]
        split
        · exact settles.symm
        · exact settles.symm
    | none =>
        have nothing : rows.get? name = none := by
          rw [Dictionary.get?_of_madeBy made, given, Option.bind_none]
        rw [nothing, Option.none_or]
        split
        · exact (canonical.settle_get? name).symm
        · next unknown => exact Dictionary.get?_eq_none_iff.mpr unknown

end MappingTable

/-! ## Documents of texts -/

def namesUnder (document : Entries) (key : String) : List String :=
  match document.get? key with
  | some (.list items) => items.map (·.display)
  | _ => []

def rowsUnder (document : Entries) (key : String) : Dictionary Value :=
  match document.get? key with
  | some (.mapping rows) => namedRows rows
  | _ => []

def tableKeys : List String :=
  mappingTables.map (·.key) ++ (listTables ++ setTables).map (·.key)

def onlyTables (document : Entries) : Entries :=
  document.filter fun entry => tableKeys.any fun key => entry.1.same (.text key)

/-- What a document has for tables is of their kinds: lists of texts, and mappings from texts to
what makes a row. No key stands twice. -/
structure Supplements (document : Entries) : Prop where
  keys : document.Distinct
  lists : ∀ table ∈ listTables ++ setTables, ∀ value, document.get? table.key = some value →
    ∃ names, value = listValue names
  mappings : ∀ table ∈ mappingTables, ∀ value, document.get? table.key = some value →
    ∃ pairs, value = .mapping (textRows pairs) ∧ pairs.names.Nodup ∧
      ∀ pair ∈ pairs, ∃ row, table.ReadsRow pair row

/-- Tables after a document is put on top of them. -/
structure ExtendedBy (tables : Tables) (document : Entries) (merged : Tables) : Prop where
  lists : ∀ table ∈ listTables, table.names merged =
    table.names tables ++
      ((namesUnder document table.key).filter fun name => name ∉ table.names tables).eraseDups
  sets : ∀ table ∈ setTables,
    table.names merged = sortedSet (table.names tables ++ namesUnder document table.key)
  mappings : ∀ table ∈ mappingTables, ∃ rows,
    List.Forall₂ table.ReadsRow (rowsUnder document table.key) rows ∧
      table.rows merged = (table.rows tables).updated rows
  unlisted : ∀ table ∈ listTables ++ setTables, document.get? table.key = none →
    table.names merged = table.names tables
  unmapped : ∀ table ∈ mappingTables, document.get? table.key = none →
    table.rows merged = table.rows tables
  unknown : tables.merge (onlyTables document) = .ok merged

variable {tables merged : Tables} {document : Entries}

private theorem exists_ofDocument
    (mappings : ∀ table ∈ mappingTables, ∃ rows, table.read document = .ok rows)
    (names : ∀ table ∈ listTables ++ setTables, ∃ names,
      readList document table.key = .ok names) :
    ∃ tables, ofDocument document = .ok tables := by
  simp only [mappingTables, List.forall_mem_cons] at mappings
  simp only [listTables, setTables, List.cons_append, List.nil_append, List.forall_mem_cons]
    at names
  rcases mappings with ⟨⟨dependencies, dependenciesRead⟩, ⟨compilers, compilersRead⟩,
    ⟨shortcuts, shortcutsRead⟩, ⟨messages, messagesRead⟩, ⟨constants, constantsRead⟩, -⟩
  rcases names with ⟨⟨comments, commentsRead⟩, ⟨languages, languagesRead⟩,
    ⟨commands, commandsRead⟩, ⟨fileMethods, fileMethodsRead⟩, ⟨tags, tagsRead⟩,
    ⟨checks, checksRead⟩, -⟩
  let tables : Tables := {
    deprecatedDependencies := dependencies
    templateComments := comments
    fileMethods := sortedSet fileMethods
    compilers := compilers
    pathShortcuts := shortcuts
    vendoredLanguages := languages
    environmentCommands := commands
    dependencyTags := sortedSet tags
    legacySystemChecks := sortedSet checks
    deprecatedEnvironmentMethods := messages
    deprecatedConstants := constants }
  have read : tables.AreReadFrom document := by
    refine { mappings := ?_, lists := ?_, sets := ?_ }
    · simp only [mappingTables, List.forall_mem_cons]
      exact ⟨dependenciesRead, compilersRead, shortcutsRead, messagesRead, constantsRead,
        List.forall_mem_nil _⟩
    · simp only [listTables, List.forall_mem_cons]
      exact ⟨commentsRead, languagesRead, commandsRead, List.forall_mem_nil _⟩
    · simp only [setTables, List.forall_mem_cons, fileMethodsRead, tagsRead, checksRead]
      exact ⟨rfl, rfl, rfl, List.forall_mem_nil _⟩
  exact ⟨tables, ofDocument_of_areReadFrom read⟩

private theorem readList_supplemented (supplements : Supplements document) {table : NameTable}
    (listed : table ∈ listTables ++ setTables) :
    readList (layerEntries tables.toDocument document) table.key =
      .ok (extended (table.names tables) ((namesUnder document table.key).map Value.text)) := by
  rw [readList_layerEntries supplements.keys listed, namesUnder]
  cases given : document.get? table.key with
  | none => exact congrArg Except.ok (map_display_text _).symm
  | some value =>
      rcases supplements.lists table listed value given with ⟨names, rfl⟩
      have written : ((names.map Value.text).map (·.display)).map Value.text =
          names.map Value.text := by rw [map_display_text]
      exact congrArg (fun items => Except.ok (extended _ items)) written.symm

private theorem exists_read_supplemented (canonical : tables.Canonical)
    (supplements : Supplements document)
    {table : MappingTable} (listed : table ∈ mappingTables) :
    ∃ rows, List.Forall₂ table.ReadsRow (rowsUnder document table.key) rows ∧
      table.read (layerEntries tables.toDocument document) =
        .ok ((table.rows tables).updated rows) := by
  have before := canonical.mappings table listed
  have standing := get?_toDocument_mapping tables table listed
  rw [rowsUnder]
  cases given : document.get? table.key with
  | none =>
      refine ⟨[], List.Forall₂.nil, ?_⟩
      rw [table.read_congr (get?_layerEntries_of_absent given),
        MappingTable.read_eq_ok_iff standing, Dictionary.updated_nil]
      exact before.settles
  | some value =>
      rcases supplements.mappings table listed value given with ⟨pairs, rfl, fresh, readable⟩
      rcases exists_forall₂ readable with ⟨rows, reads⟩
      have layered : (layerEntries tables.toDocument document).get? table.key =
          some (.mapping (Entries.putAll (table.written (table.rows tables)) (textRows pairs))) := by
        rw [get?_layerEntries_of_given supplements.keys given, standing]
        rfl
      have made := reads.imp fun _ _ => MappingTable.madeBy_of_readsRow listed
      refine ⟨rows, ?_, ?_⟩
      · change List.Forall₂ table.ReadsRow (namedRows (textRows pairs)) rows
        rwa [namedRows_textRows]
      · rw [MappingTable.read_eq_ok_iff layered]
        exact MappingTable.settles_putAll_textRows before fresh made

private theorem distinct_onlyTables (distinct : document.Distinct) :
    (onlyTables document).Distinct :=
  distinct.filter _

private theorem get?_onlyTables {key : String} (known : key ∈ tableKeys) :
    (onlyTables document).get? key = document.get? key := by
  have same : ∀ entry : Scalar × Value,
      ((tableKeys.any fun key => entry.1.same (.text key)) = true ∧
        entry.1.same (.text key) = true) ↔ entry.1.same (.text key) = true := by
    intro entry
    exact ⟨And.right, fun named => ⟨List.any_eq_true.mpr ⟨key, known, named⟩, named⟩⟩
  simp only [onlyTables, Entries.get?, List.find?_filter, same]
  simp only [Bool.decide_eq_true]

private theorem get?_layerEntries_onlyTables {base : Entries} {key : String}
    (distinct : document.Distinct)
    (known : key ∈ tableKeys) :
    (layerEntries base (onlyTables document)).get? key = (layerEntries base document).get? key := by
  have kept : (onlyTables document).get? key = document.get? key := get?_onlyTables known
  cases given : document.get? key with
  | none =>
      rw [given] at kept
      rw [get?_layerEntries_of_absent given, get?_layerEntries_of_absent kept]
  | some value =>
      rw [given] at kept
      rw [get?_layerEntries_of_given distinct given,
        get?_layerEntries_of_given (distinct_onlyTables distinct) kept]

theorem areReadFrom_congr {other : Entries}
    (same : ∀ key ∈ tableKeys, other.get? key = document.get? key)
    (read : tables.AreReadFrom document) : tables.AreReadFrom other := by
  have sameNames : ∀ table ∈ listTables ++ setTables,
      readList other table.key = readList document table.key := by
    intro table listed
    exact readList_congr (same _ (List.mem_append_right _ (List.mem_map_of_mem listed)))
  refine { mappings := ?_, lists := ?_, sets := ?_ }
  · intro table listed
    rw [table.read_congr (same _ (List.mem_append_left _ (List.mem_map_of_mem listed)))]
    exact read.mappings table listed
  · intro table listed
    rw [sameNames table (List.mem_append_left _ listed)]
    exact read.lists table listed
  · intro table listed
    rw [sameNames table (List.mem_append_right _ listed)]
    exact read.sets table listed

private theorem namesUnder_of_absent {key : String} (absent : document.get? key = none) :
    namesUnder document key = [] := by
  rw [namesUnder, absent]

private theorem rowsUnder_of_absent {key : String} (absent : document.get? key = none) :
    rowsUnder document key = [] := by
  rw [rowsUnder, absent]

/-- Tables that were read take in a document of texts. Nothing is lost: lists are continued by what
is new to them, sets united with what is given, and rows keep their places and have the values that
they are given. -/
theorem merge_extends (reachable : tables.Reachable) (supplements : Supplements document) :
    ∃ merged, tables.merge document = .ok merged ∧ tables.ExtendedBy document merged := by
  have canonical := reachable.canonical
  have readNames {table : NameTable} (listed : table ∈ listTables ++ setTables) :
      readList (layerEntries tables.toDocument document) table.key = .ok _ :=
    readList_supplemented supplements listed
  have readRows {table : MappingTable} (listed : table ∈ mappingTables) :=
    exists_read_supplemented canonical supplements listed
  have succeeds : ∃ merged, tables.merge document = .ok merged := by
    apply exists_ofDocument
    · intro table listed
      rcases readRows listed with ⟨rows, -, read⟩
      exact ⟨_, read⟩
    · intro table listed
      exact ⟨_, readNames listed⟩
  rcases succeeds with ⟨merged, merges⟩
  have read : merged.AreReadFrom (layerEntries tables.toDocument document) :=
    ofDocument_eq_ok_iff.mp merges
  have lists : ∀ table ∈ listTables, table.names merged = table.names tables ++
      ((namesUnder document table.key).filter fun name => name ∉ table.names tables).eraseDups := by
    intro table listed
    have names := read.lists table listed
    rw [readNames (List.mem_append_left _ listed), extended_texts] at names
    exact (Except.ok.inj names).symm
  have sets : ∀ table ∈ setTables,
      table.names merged = sortedSet (table.names tables ++ namesUnder document table.key) := by
    intro table listed
    have names := read.sets table listed
    rw [readNames (List.mem_append_right _ listed)] at names
    rw [← sortedSet_extended_texts]
    exact (Except.ok.inj names).symm
  have mappings : ∀ table ∈ mappingTables, ∃ rows,
      List.Forall₂ table.ReadsRow (rowsUnder document table.key) rows ∧
        table.rows merged = (table.rows tables).updated rows := by
    intro table listed
    rcases readRows listed with ⟨rows, reads, made⟩
    rw [read.mappings table listed] at made
    exact ⟨rows, reads, Except.ok.inj made⟩
  refine ⟨merged, merges, ?_⟩
  refine {
    lists := lists
    sets := sets
    mappings := mappings
    unlisted := ?_
    unmapped := ?_
    unknown := ?_ }
  · intro table listed absent
    rcases List.mem_append.mp listed with inList | inSet
    · rw [lists table inList, namesUnder_of_absent absent, List.filter_nil, List.eraseDups_nil,
        List.append_nil]
    · rw [sets table inSet, namesUnder_of_absent absent, List.append_nil,
        canonical.sets table inSet]
  · intro table listed absent
    rcases mappings table listed with ⟨rows, reads, extended⟩
    rw [rowsUnder_of_absent absent, List.forall₂_nil_left_iff] at reads
    rw [extended, reads, Dictionary.updated_nil]
  · apply ofDocument_of_areReadFrom
    refine areReadFrom_congr ?_ read
    intro key known
    exact get?_layerEntries_onlyTables supplements.keys known

def startingTables : Tables where
  vendoredLanguages := ["lua"]
  dependencyTags := ["run"]
  deprecatedConstants := [("FIRST", .text "first"), ("SECOND", .text "second")]

/-- A document of texts that has something for three tables: names that are known or stand twice, a
row that is known and one that is new, and a key of which no table knows. -/
def supplement : Entries := [
  (.text "vendored_languages", listValue ["go", "lua", "go"]),
  (.whole 1, .text "one"),
  (.text "dependency_tags", listValue ["run", "build"]),
  (.text "deprecated_constants", .mapping (textRows
    [("THIRD", .text "third"), ("SECOND", .list [.text "other"])]))]

private theorem supplements_supplement : Supplements supplement := by
  have absent {value : Value} {goal : Prop} (given : none = some value) : goal :=
    (Option.some_ne_none value given.symm).elim
  refine { keys := ?_, lists := ?_, mappings := ?_ }
  · simp [supplement, Entries.Distinct, Scalar.same, Scalar.tenths?]
  · simp only [listTables, setTables, List.cons_append, List.nil_append, List.forall_mem_cons]
    refine ⟨fun _ given => absent given, ?_, fun _ given => absent given,
      fun _ given => absent given, ?_, fun _ given => absent given, List.forall_mem_nil _⟩
    · intro value given
      exact ⟨["go", "lua", "go"], (Option.some.inj given).symm⟩
    · intro value given
      exact ⟨["run", "build"], (Option.some.inj given).symm⟩
  · simp only [mappingTables, List.forall_mem_cons]
    refine ⟨fun _ given => absent given, fun _ given => absent given, fun _ given => absent given,
      fun _ given => absent given, ?_, List.forall_mem_nil _⟩
    intro value given
    refine ⟨[("THIRD", .text "third"), ("SECOND", .list [.text "other"])],
      (Option.some.inj given).symm, by decide, ?_⟩
    simp only [List.forall_mem_cons]
    exact ⟨⟨("THIRD", .text "third"), _, rfl, rfl⟩,
      ⟨("SECOND", .items [.text "other"]), _, rfl, rfl⟩, List.forall_mem_nil _⟩

private theorem reachable_startingTables : startingTables.Reachable :=
  .read (show ofDocument startingTables.toDocument = .ok startingTables from rfl)

theorem merge_extends_supplement :
    startingTables.Reachable ∧ Supplements supplement ∧
      ∃ merged, startingTables.merge supplement = .ok merged ∧
        startingTables.ExtendedBy supplement merged ∧
        merged.vendoredLanguages = ["lua", "go"] ∧ merged.dependencyTags = ["build", "run"] ∧
        merged.deprecatedConstants.map (fun row => (row.1, row.2.display)) =
          [("FIRST", "first"), ("SECOND", "['other']"), ("THIRD", "third")] := by
  rcases merge_extends reachable_startingTables supplements_supplement with
    ⟨merged, merges, extended⟩
  have shown : ((startingTables.merge supplement).toOption.map fun merged =>
      (merged.vendoredLanguages, merged.dependencyTags,
        merged.deprecatedConstants.map fun row => (row.1, row.2.display))) =
      some (["lua", "go"], ["build", "run"],
        [("FIRST", "first"), ("SECOND", "['other']"), ("THIRD", "third")]) := by
    decide +kernel
  rw [merges] at shown
  rcases Prod.mk.inj (Option.some.inj shown) with ⟨languages, others⟩
  rcases Prod.mk.inj others with ⟨tags, constants⟩
  exact ⟨reachable_startingTables, supplements_supplement, merged, merges, extended, languages,
    tags, constants⟩

end Tables

end FormulaLint
