import FormulaLint.CommandLine.Session
import FormulaLint.Proofs.LayeredTwice
import FormulaLint.Proofs.StoredText

/-! Documents that cannot be loaded. What breaks the grammar of documents, is no mapping, or has
entries of a wrong form is reported as a fault of the configuration, and the session ends in good
order. A folder in the place of a document, bytes that are no text, whatever else stops the reading
of a text, and bounds in a pattern that no repetition can have are not caught: they break the session
off. -/

namespace FormulaLint

/-! ## Faults in patterns -/

def ConfigFault.IsPlain (fault : ConfigFault) : Prop :=
  fault.inPattern? = none

theorem ConfigFault.IsPlain.isReported {fault : ConfigFault} (plain : fault.IsPlain) :
    fault.isReported = true := by
  rw [ConfigFault.isReported, show fault.inPattern? = none from plain]
  rfl

theorem ConfigFault.isReported_of_repeatTooLarge {fault : ConfigFault} {found : Pattern.Fault}
    (about : fault.inPattern? = some found) (cause : found.cause = .repeatTooLarge) :
    fault.isReported = false := by
  rw [isReported, about]
  simp [cause]

open FormulaLint.Except (FailsOnly failsOnly_ok failsOnly_error)

namespace Tables

variable {document : Entries} {key : String}

private theorem failsOnly_readMapping {α : Type} {reads : Value → Option α} :
    FailsOnly ConfigFault.IsPlain (readMapping document key reads) := by
  rw [readMapping]
  split
  · exact failsOnly_ok []
  · refine FailsOnly.map (FailsOnly.mapM fun entry _ => ?_)
    rw [readEntry]
    split
    · exact failsOnly_ok _
    · exact failsOnly_error rfl
  · exact failsOnly_error rfl

private theorem failsOnly_readList : FailsOnly ConfigFault.IsPlain (readList document key) := by
  rw [readList]
  split
  · exact failsOnly_ok []
  · exact failsOnly_ok _
  · exact failsOnly_error rfl

/-- Where the path shortcuts can be read, no fault is about a pattern. -/
theorem failsOnly_ofDocument {shortcuts : Dictionary (List Pattern)}
    (read : shortcutTable.read document = .ok shortcuts) :
    FailsOnly ConfigFault.IsPlain (ofDocument document) := by
  rw [read_shortcutTable] at read
  rcases Except.exists_of_bind_eq_ok read with ⟨rows, rowsRead, patternsRead⟩
  unfold ofDocument
  rw [rowsRead]
  refine failsOnly_readMapping.bind fun _ => ?_
  refine failsOnly_readList.bind fun _ => ?_
  refine failsOnly_readList.bind fun _ => ?_
  refine failsOnly_readMapping.bind fun _ => ?_
  change FailsOnly ConfigFault.IsPlain (rows.mapM readShortcuts >>= _)
  rw [patternsRead]
  refine (failsOnly_ok shortcuts).bind fun _ => ?_
  refine failsOnly_readList.bind fun _ => ?_
  refine failsOnly_readList.bind fun _ => ?_
  refine failsOnly_readList.bind fun _ => ?_
  refine failsOnly_readList.bind fun _ => ?_
  refine failsOnly_readMapping.bind fun _ => ?_
  refine failsOnly_readMapping.bind fun _ => ?_
  exact failsOnly_ok _

private theorem read_shortcutTable_layerEntries {tables : Tables} (canonical : tables.Canonical)
    (absent : document.get? "path_shortcuts" = none) :
    shortcutTable.read (layerEntries tables.toDocument document) =
      .ok (shortcutTable.rows tables) := by
  have listed : shortcutTable ∈ mappingTables := by simp [mappingTables]
  rw [shortcutTable.read_congr (get?_layerEntries_of_absent absent),
    MappingTable.read_eq_ok_iff (get?_toDocument_mapping tables shortcutTable listed)]
  exact (canonical.mappings shortcutTable listed).settles

end Tables

theorem Policy.ofDocument_of_absent {document : Entries}
    (absent : ∀ key ∈ Configuration.policyKeys, document.get? key = none) :
    Policy.ofDocument document = .ok {} := by
  have nothing : ∀ key ∈ Configuration.policyKeys, readEntries document key = .ok [] := by
    intro key listed
    rw [readEntries, absent key listed]
  rw [ofDocument, nothing "exemptions" (by decide), nothing "restrictions" (by decide)]
  rfl

/-! ## What can be read whatever it says -/

/-- An integer that is written out with no more digits than are written at once. -/
def Scalar.IsWritable : Scalar → Prop
  | .whole value => (toString value).length ≤ 4300
  | _ => True

/-- A value whose integers can be written out and in which nothing stands deeper than allowed. -/
inductive Value.IsShallow : Nat → Value → Prop
  | scalar {depth : Nat} {single : Scalar} (writable : single.IsWritable) :
      IsShallow depth (.scalar single)
  | list {depth : Nat} {items : List Value} (each : ∀ item ∈ items, IsShallow depth item) :
      IsShallow (depth + 1) (.list items)
  | mapping {depth : Nat} {entries : Entries} (keys : ∀ entry ∈ entries, entry.1.IsWritable)
      (values : ∀ entry ∈ entries, IsShallow depth entry.2) :
      IsShallow (depth + 1) (.mapping entries)

def Disk.HoldsText (disk : Disk) (path : Path) (text : String) : Prop :=
  ∃ bytes, disk.read path = .ok (some bytes) ∧ Text.decode bytes = .ok text

namespace Configuration

variable {languages : Languages} {disk : Disk} {path : Path} {paths front rest : List Path}
  {base configuration reached : Configuration} {failure : Failure} {document : Entries}

/-! ## Layers without patterns -/

def patternKeys : List String :=
  "path_shortcuts" :: policyKeys

private theorem failsOnly_layer (canonical : base.tables.Canonical)
    (absent : ∀ key ∈ patternKeys, document.get? key = none) :
    FailsOnly ConfigFault.IsPlain (base.layer document) := by
  rcases List.forall_mem_cons.mp absent with ⟨withoutShortcuts, withoutPolicy⟩
  have policy : Policy.ofDocument document = .ok {} := Policy.ofDocument_of_absent withoutPolicy
  unfold layer
  rw [policy]
  dsimp only
  split
  · exact failsOnly_ok _
  · have dropped : Entries.get? (document.filter fun entry => !isPolicyKey entry.1)
        "path_shortcuts" = none := by
      rw [Entries.get?, Option.map_eq_none_iff, List.find?_eq_none] at withoutShortcuts ⊢
      intro entry kept
      exact withoutShortcuts entry (List.mem_filter.mp kept).1
    have read := Tables.read_shortcutTable_layerEntries canonical dropped
    exact (Tables.failsOnly_ofDocument read).bind fun _ => failsOnly_ok _

private theorem canonical_of_withDocument (canonical : base.tables.Canonical)
    (made : base.withDocument languages disk path = .ok configuration) :
    configuration.tables.Canonical := by
  rcases exists_layer_of_withDocument made with ⟨document, -, layers⟩
  rcases tables_of_layer layers with same | merges
  · rw [same]
    exact canonical
  · exact Tables.canonical_of_ofDocument merges

theorem canonical_of_load (loads : (load languages disk paths).1 = .ok reached) :
    reached.tables.Canonical := by
  rcases exists_packaged with ⟨base, starts⟩
  rw [fst_load starts] at loads
  refine Except.holds_of_foldlM_eq_ok (·.tables.Canonical) loads ?_
    fun _ _ _ _ => canonical_of_withDocument
  exact Tables.canonical_of_ofDocument (ofDocument_of_packaged starts)

/-! ## One document -/

theorem withDocument_of_read (reads : readDocument languages disk path = .ok document) :
    base.withDocument languages disk path =
      (base.layer document).mapError Failure.configuration := by
  rw [withDocument, reads]
  rfl

theorem withDocument_of_empty (reads : readDocument languages disk path = .ok []) :
    base.withDocument languages disk path = .ok base := by
  rw [withDocument_of_read reads, layer_nil]
  rfl

theorem withDocument_of_error (stops : readDocument languages disk path = .error failure) :
    base.withDocument languages disk path = .error failure := by
  rw [withDocument, stops]
  rfl

theorem readDocument_of_text {text : String} (holds : disk.HoldsText path text) :
    readDocument languages disk path = documentEntries path (languages.document text) := by
  rcases holds with ⟨bytes, read, decodes⟩
  simp only [readDocument, read, decodes]

theorem withDocument_of_mapping {text : String} {entries : Entries}
    (holds : disk.HoldsText path text)
    (means : languages.document text = .ok (.mapping entries)) :
    base.withDocument languages disk path =
      (base.layer entries).mapError Failure.configuration := by
  refine withDocument_of_read ?_
  rw [readDocument_of_text holds, means, documentEntries]

/-- A document that is put on top or refused, whatever it is put on top of: there is none, it breaks
the grammar, it is no mapping, or it is one without patterns. Nothing is said of values that are too
long or too deep to be written out. -/
inductive Harmless (languages : Languages) (disk : Disk) (path : Path) : Prop
  | missing (holds : disk.read path = .ok none) (short : path.text.utf8ByteSize ≤ 255)
  | invalid {text reason : String} (holds : disk.HoldsText path text)
      (meaningless : languages.document text = .error (.invalid reason))
  | notMapping {text : String} {value : Value} (holds : disk.HoldsText path text)
      (means : languages.document text = .ok value) (other : ∀ entries, value ≠ .mapping entries)
  | withoutPatterns {text : String} {entries : Entries} (holds : disk.HoldsText path text)
      (means : languages.document text = .ok (.mapping entries))
      (absent : ∀ key ∈ patternKeys, entries.get? key = none)
      (shallow : (Value.mapping entries).IsShallow 100)

/-- A document that breaks off the loading that has come to a configuration: it is a folder, short
bytes that are no text, a text that cannot be read to its end, or a mapping whose first fault is a
bound that is too large. -/
inductive BreaksOff (languages : Languages) (disk : Disk) (base : Configuration) (path : Path) :
    Prop
  | folder (holds : disk.read path = .error .isFolder)
  | notText {bytes : ByteArray} {fault : Text.DecodeFault}
      (holds : disk.read path = .ok (some bytes)) (undecodable : Text.decode bytes = .error fault)
      (short : bytes.size ≤ 4096)
  | interrupted {text : String} (holds : disk.HoldsText path text)
      (stops : languages.document text = .error .interrupted)
  | boundTooLarge {text : String} {entries : Entries} {fault : ConfigFault} {found : Pattern.Fault}
      (holds : disk.HoldsText path text)
      (means : languages.document text = .ok (.mapping entries))
      (layers : base.layer entries = .error fault) (about : fault.inPattern? = some found)
      (cause : found.cause = .repeatTooLarge)

/-- Loading gives a configuration or a fault of the configuration that is reported. -/
def EndsInOrder (languages : Languages) (disk : Disk) (paths : List Path) : Prop :=
  (∃ configuration, (load languages disk paths).1 = .ok configuration) ∨
    ∃ fault, (load languages disk paths).1 = .error (.configuration fault) ∧ fault.isReported = true

def Unreported (failure : Failure) : Prop :=
  ∀ fault, failure = .configuration fault → fault.isReported = false

theorem not_endsInOrder_iff :
    ¬ EndsInOrder languages disk paths ↔
      ∃ failure, (load languages disk paths).1 = .error failure ∧ Unreported failure := by
  rw [EndsInOrder]
  cases (load languages disk paths).1 with
  | ok configuration => exact iff_of_false (fun breaks => breaks (.inl ⟨_, rfl⟩)) nofun
  | error failure => simp [Unreported]

theorem load_eq_error_iff :
    (load languages disk paths).1 = .error failure ↔
      ∃ front path rest reached, paths = front ++ path :: rest ∧
        (load languages disk front).1 = .ok reached ∧
        reached.withDocument languages disk path = .error failure := by
  rcases exists_packaged with ⟨base, starts⟩
  simp only [fst_load starts, Except.foldlM_eq_error_iff]

theorem BreaksOff.exists_unreported (breaks : BreaksOff languages disk base path) :
    ∃ failure, base.withDocument languages disk path = .error failure ∧ Unreported failure := by
  cases breaks with
  | folder holds =>
      exact ⟨.disk .isFolder, withDocument_of_error (by rw [readDocument, holds]), nofun⟩
  | notText holds undecodable _ =>
      exact ⟨.documentNotText,
        withDocument_of_error (by simp only [readDocument, holds, undecodable]), nofun⟩
  | interrupted holds stops =>
      exact ⟨.documentInterrupted,
        withDocument_of_error (by rw [readDocument_of_text holds, stops, documentEntries]), nofun⟩
  | boundTooLarge holds means layers about cause =>
      refine ⟨_, by rw [withDocument_of_mapping holds means, layers]; rfl, ?_⟩
      intro fault same
      cases same
      exact ConfigFault.isReported_of_repeatTooLarge about cause

theorem not_endsInOrder_of_breaksOff (loads : (load languages disk front).1 = .ok reached)
    (breaks : BreaksOff languages disk reached path) :
    ¬ EndsInOrder languages disk (front ++ path :: rest) := by
  rcases breaks.exists_unreported with ⟨failure, stops, unreported⟩
  exact not_endsInOrder_iff.mpr
    ⟨failure, load_eq_error_iff.mpr ⟨front, path, rest, reached, rfl, loads, stops⟩, unreported⟩

theorem Harmless.exists_isReported (harmless : Harmless languages disk path)
    (canonical : base.tables.Canonical)
    (stops : base.withDocument languages disk path = .error failure) :
    ∃ fault, failure = .configuration fault ∧ fault.isReported = true := by
  cases harmless with
  | missing holds _ =>
      have reads : readDocument languages disk path = .ok [] := by rw [readDocument, holds]
      cases (withDocument_of_empty reads).symm.trans stops
  | invalid holds meaningless =>
      have reads : readDocument languages disk path = _ := readDocument_of_text holds
      rw [meaningless, documentEntries] at reads
      cases (withDocument_of_error reads).symm.trans stops
      exact ⟨_, rfl, rfl⟩
  | notMapping holds means other =>
      have reads : readDocument languages disk path = _ := readDocument_of_text holds
      rw [means, documentEntries.eq_def] at reads
      split at reads
      case h_3 => cases (withDocument_of_empty reads).symm.trans stops
      case h_4 entries same => cases other entries (Except.ok.inj same)
      case h_5 =>
        cases (withDocument_of_error reads).symm.trans stops
        exact ⟨_, rfl, rfl⟩
      all_goals contradiction
  | withoutPatterns holds means absent _ =>
      rw [withDocument_of_mapping holds means] at stops
      rcases layers : base.layer _ with fault | layered
      · rw [layers] at stops
        cases stops
        exact ⟨fault, rfl, (failsOnly_layer canonical absent fault layers).isReported⟩
      · rw [layers] at stops
        cases stops

theorem endsInOrder_of_harmless (harmless : ∀ path ∈ paths, Harmless languages disk path) :
    EndsInOrder languages disk paths := by
  rcases loads : (load languages disk paths).1 with failure | configuration
  case ok => exact .inl ⟨configuration, loads⟩
  case error =>
    rcases load_eq_error_iff.mp loads with ⟨front, path, rest, reached, rfl, before, stops⟩
    have listed : path ∈ front ++ path :: rest := List.mem_append_right _ List.mem_cons_self
    rcases (harmless path listed).exists_isReported (canonical_of_load before) stops with
      ⟨fault, rfl, reported⟩
    exact .inr ⟨fault, loads, reported⟩

def IsSilentElsewhere (failure : Failure) : Prop :=
  (∃ fault, failure = .configuration fault) ∨ failure.message? = none

private theorem failsOnly_readDocument :
    FailsOnly IsSilentElsewhere (readDocument languages disk path) := by
  unfold readDocument
  split
  · exact failsOnly_error (.inr rfl)
  · exact failsOnly_ok []
  · split
    · exact failsOnly_error (.inr rfl)
    · unfold documentEntries
      split
      · exact failsOnly_error (.inl ⟨_, rfl⟩)
      · exact failsOnly_error (.inr rfl)
      · exact failsOnly_ok []
      · exact failsOnly_ok _
      · exact failsOnly_error (.inl ⟨_, rfl⟩)

private theorem failsOnly_withDocument :
    FailsOnly IsSilentElsewhere (base.withDocument languages disk path) := by
  refine failsOnly_readDocument.bind fun document => ?_
  cases base.layer document with
  | error fault => exact failsOnly_error (.inl ⟨fault, rfl⟩)
  | ok layered => exact failsOnly_ok layered

private theorem message?_eq_none_of_load (stops : (load languages disk paths).1 = .error failure)
    (unreported : Unreported failure) : failure.message? = none := by
  rcases load_eq_error_iff.mp stops with ⟨front, path, rest, reached, -, -, document⟩
  rcases failsOnly_withDocument failure document with ⟨fault, rfl⟩ | silent
  · rw [Failure.message?, unreported fault rfl, if_neg Bool.false_ne_true]
  · exact silent

end Configuration

/-! ## The session -/

namespace CommandLine

open FormulaLint.Configuration (load EndsInOrder BreaksOff Harmless)

variable {languages : Languages} {disk : Disk} {options : Options} {catalogue : Catalogue}
  {failure : Failure}

theorem session_of_load (known : Catalogue.builtIn.ofFamilies options.families = .ok catalogue)
    {noticed : List Notice}
    (stops : load languages disk (options.configurations.map Path.ofText) =
      (.error failure, noticed)) :
    options.session languages disk =
      match failure.message? with
      | some message =>
          ⟨.ok refusal, "", logged options.verbose noticed ++ failureReport message, disk⟩
      | none => ⟨.error failure, "", logged options.verbose noticed, disk⟩ := by
  have audited : options.audit languages disk = ⟨.error failure, noticed, disk⟩ := by
    rw [Options.audit, known, stops]
  cases message : failure.message? with
  | none => simp only [Options.session, audited, message]
  | some text => simp only [Options.session, audited, message]

theorem load_of_fst {paths : List Path} (stops : (load languages disk paths).1 = .error failure) :
    load languages disk paths = (.error failure, (load languages disk paths).2) := by
  generalize load languages disk paths = loaded at stops ⊢
  rcases loaded with ⟨outcome, noticed⟩
  cases stops
  rfl

/-- Loading ends in order where no document does any harm, and it does not where it comes to one that
breaks it off. A fault that is reported is printed and ends the session with the code of a refusal;
anything else breaks the session off without a word. Neither way is a result shown or the disk
written to. -/
theorem session_endsInOrder_or_breaksOff (languages : Languages) (disk : Disk) :
    (∀ paths, (∀ path ∈ paths, Harmless languages disk path) →
      EndsInOrder languages disk paths) ∧
    (∀ front path rest reached, (load languages disk front).1 = .ok reached →
      BreaksOff languages disk reached path →
      ¬ EndsInOrder languages disk (front ++ path :: rest)) ∧
    ∀ (options : Options) (catalogue : Catalogue),
      Catalogue.builtIn.ofFamilies options.families = .ok catalogue →
      let paths := options.configurations.map Path.ofText
      let log := logged options.verbose (load languages disk paths).2
      (∀ fault, (load languages disk paths).1 = .error (.configuration fault) →
        fault.isReported = true →
        options.session languages disk =
          ⟨.ok refusal, "", log ++ failureReport fault.message, disk⟩) ∧
      (¬ EndsInOrder languages disk paths →
        ∃ failure, (load languages disk paths).1 = .error failure ∧
          options.session languages disk = ⟨.error failure, "", log, disk⟩) := by
  refine ⟨fun _ => Configuration.endsInOrder_of_harmless,
    fun _ _ _ _ => Configuration.not_endsInOrder_of_breaksOff, ?_⟩
  intro options catalogue known paths log
  constructor
  · intro fault stops reported
    have message : (Failure.configuration fault).message? = some fault.message := by
      rw [Failure.message?, if_pos reported]
    rw [session_of_load known (load_of_fst stops), message]
  · intro breaks
    rcases Configuration.not_endsInOrder_iff.mp breaks with ⟨failure, stops, unreported⟩
    refine ⟨failure, stops, ?_⟩
    rw [session_of_load known (load_of_fst stops),
      Configuration.message?_eq_none_of_load stops unreported]

/-! ## A list, a date and a byte -/

def listLanguages : Languages where
  grammar _ := ⟨⟨"program", true, none, 0, 0, []⟩, false⟩
  document text :=
    if text = "- name\n" then .ok (.list [.text "name"])
    else if text = "dependency_tags: [run]\n" then
      .ok (.mapping [(.text "dependency_tags", .list [.text "run"])])
    else .error .interrupted

def listDisk : Disk where
  tree := .folder [
    ("list.yaml", .file "- name\n".toUTF8),
    ("tags.yaml", .file "dependency_tags: [run]\n".toUTF8),
    ("date.yaml", .file "x: 2001-13-45\n".toUTF8),
    ("byte.yaml", .file ⟨#[0xff]⟩)]
  current := []

def absentPath : Path := ⟨0, ["absent.yaml"]⟩

def listPath : Path := ⟨0, ["list.yaml"]⟩

def tagsPath : Path := ⟨0, ["tags.yaml"]⟩

def datePath : Path := ⟨0, ["date.yaml"]⟩

def bytePath : Path := ⟨0, ["byte.yaml"]⟩

theorem holdsText_of_toUTF8 {path : Path} {text : String}
    (holds : disk.read path = .ok (some text.toUTF8)) : disk.HoldsText path text :=
  ⟨text.toUTF8, holds, Text.decode_eq_ok_iff.mpr rfl⟩

private theorem harmless_list :
    ∀ path ∈ [absentPath, tagsPath, listPath], Harmless listLanguages listDisk path := by
  have tags : listDisk.HoldsText tagsPath "dependency_tags: [run]\n" := holdsText_of_toUTF8 rfl
  have list : listDisk.HoldsText listPath "- name\n" := holdsText_of_toUTF8 rfl
  simp only [List.forall_mem_cons]
  refine ⟨.missing rfl (by decide +kernel), ?_, .notMapping list rfl nofun, List.forall_mem_nil _⟩
  refine .withoutPatterns tags rfl (by decide +kernel) (.mapping ?_ ?_)
  · exact List.forall_mem_singleton.mpr trivial
  · refine List.forall_mem_singleton.mpr (.list (List.forall_mem_singleton.mpr ?_))
    exact .scalar trivial

private theorem exists_load_absent :
    ∃ base, (load listLanguages listDisk [absentPath]).1 = .ok base := by
  rcases Configuration.exists_packaged with ⟨base, starts⟩
  have missing : Configuration.readDocument listLanguages listDisk absentPath = .ok [] := rfl
  refine ⟨base, ?_⟩
  rw [Configuration.fst_load starts, List.foldlM_cons,
    Configuration.withDocument_of_empty missing]
  rfl

theorem load_absent_cons {path : Path} {rest : List Path}
    (refused : Configuration.readDocument listLanguages listDisk path = .error failure) :
    load listLanguages listDisk (absentPath :: path :: rest) =
      (.error failure, [.emptyConfiguration "absent.yaml"]) := by
  rcases Configuration.exists_packaged with ⟨base, starts⟩
  have missing : Configuration.readDocument listLanguages listDisk absentPath = .ok [] := rfl
  rw [Configuration.load_eq starts]
  simp only [Configuration.addLayers, Configuration.addLayer, missing, refused]
  rfl

theorem session_endsInOrder_or_breaksOff_list :
    EndsInOrder listLanguages listDisk [absentPath, tagsPath, listPath] ∧
    ¬ EndsInOrder listLanguages listDisk [absentPath, datePath, listPath] ∧
    Options.session { configurations := ["absent.yaml", "list.yaml"] } listLanguages listDisk =
      ⟨.ok 2, "",
        "WARNING formula_audit.config: Configuration file absent.yaml is missing or empty\n" ++
          "formula-audit: Configuration at list.yaml is not a mapping\n", listDisk⟩ ∧
    ∃ failure, Options.session { configurations := ["absent.yaml", "date.yaml", "list.yaml"] }
      listLanguages listDisk = ⟨.error failure, "",
        "WARNING formula_audit.config: Configuration file absent.yaml is missing or empty\n",
        listDisk⟩ := by
  rcases session_endsInOrder_or_breaksOff listLanguages listDisk with
    ⟨endsInOrder, breaksOff, sessions⟩
  have list : listDisk.HoldsText listPath "- name\n" := holdsText_of_toUTF8 rfl
  have date : listDisk.HoldsText datePath "x: 2001-13-45\n" := holdsText_of_toUTF8 rfl
  have known : Catalogue.builtIn.ofFamilies [] = .ok Catalogue.builtIn := rfl
  rcases exists_load_absent with ⟨base, before⟩
  have stops : ¬ EndsInOrder listLanguages listDisk [absentPath, datePath, listPath] :=
    breaksOff [absentPath] datePath [listPath] base before (.interrupted date rfl)
  refine ⟨endsInOrder _ harmless_list, stops, ?_, ?_⟩
  · have refused : load listLanguages listDisk [absentPath, listPath] = _ :=
      load_absent_cons (Configuration.readDocument_of_text list)
    have named : ["absent.yaml", "list.yaml"].map Path.ofText = [absentPath, listPath] := by
      decide
    rcases sessions { configurations := ["absent.yaml", "list.yaml"] } _ known with ⟨refuses, -⟩
    rw [named, refused] at refuses
    exact refuses _ rfl rfl
  · have broken : load listLanguages listDisk [absentPath, datePath, listPath] = _ :=
      load_absent_cons (Configuration.readDocument_of_text date)
    have named : ["absent.yaml", "date.yaml", "list.yaml"].map Path.ofText =
        [absentPath, datePath, listPath] := by
      decide
    rcases sessions { configurations := ["absent.yaml", "date.yaml", "list.yaml"] } _ known with
      ⟨-, breaks⟩
    rw [named] at breaks
    rcases breaks stops with ⟨failure, -, session⟩
    rw [broken] at session
    exact ⟨failure, session⟩

/-- Where a document is a byte that is no text, loading does not end in order, and neither does the
session. -/
theorem not_endsInOrder_byte :
    ¬ EndsInOrder listLanguages listDisk [bytePath] ∧
      (Options.session { configurations := ["byte.yaml"] } listLanguages listDisk).exit =
        .error .documentNotText := by
  have undecodable : (Text.decode ⟨#[0xff]⟩).isOk = false := by decide +kernel
  rcases decoded : Text.decode ⟨#[0xff]⟩ with fault | text
  case ok => cases (decoded ▸ undecodable)
  have refused : Configuration.readDocument listLanguages listDisk bytePath =
      .error .documentNotText := by
    have holds : listDisk.read bytePath = .ok (some ⟨#[0xff]⟩) := rfl
    simp only [Configuration.readDocument, holds, decoded]
  rcases Configuration.exists_packaged with ⟨base, starts⟩
  have loads : (load listLanguages listDisk [bytePath]).1 = .error .documentNotText := by
    rw [Configuration.fst_load starts, List.foldlM_cons,
      Configuration.withDocument_of_error refused]
    rfl
  refine ⟨Configuration.not_endsInOrder_iff.mpr ⟨_, loads, nofun⟩, ?_⟩
  have named : ["byte.yaml"].map Path.ofText = [bytePath] := by decide
  have known : Catalogue.builtIn.ofFamilies [] = .ok Catalogue.builtIn := rfl
  rw [session_of_load known (load_of_fst (named ▸ loads))]
  rfl

end CommandLine

end FormulaLint
