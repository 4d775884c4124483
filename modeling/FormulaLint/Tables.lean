import FormulaLint.Configuration.Fault
import FormulaLint.Dictionary
import FormulaLint.Phrase
import FormulaLint.StableSort

/-! The tables that rules look things up in, and their form in a configuration document. -/

namespace FormulaLint

/-- The three sets are kept sorted and without repetition; all other tables keep the order in which
they were given. -/
structure Tables where
  deprecatedDependencies : Dictionary (Option Phrase) := []
  templateComments : List String := []
  fileMethods : List String := []
  compilers : Dictionary (List String) := []
  pathShortcuts : Dictionary (List Pattern) := []
  vendoredLanguages : List String := []
  environmentCommands : List String := []
  dependencyTags : List String := []
  legacySystemChecks : List String := []
  deprecatedEnvironmentMethods : Dictionary Phrase := []
  deprecatedConstants : Dictionary Phrase := []
  deriving Repr

/-- The members of a list as a set: sorted by code point, each once. -/
def sortedSet (names : List String) : List String :=
  stableSort (fun left right => decide (left ≤ right)) names.eraseDups

namespace Tables

/-! ## Reading tables from a document -/

def present? (document : Entries) (key : String) : Option Value :=
  (document.get? key).filter fun value => !value.isEmpty

def readEntry {α : Type} (key : String) (reads : Value → Option α) (entry : Scalar × Value) :
    Except ConfigFault (String × α) :=
  match reads entry.2 with
  | some item => .ok (entry.1.display, item)
  | none => .error (.unsupportedValue key entry.1.display entry.2)

def readMapping {α : Type} (document : Entries) (key : String) (reads : Value → Option α) :
    Except ConfigFault (Dictionary α) :=
  match present? document key with
  | none => .ok []
  | some (.mapping entries) => Dictionary.ofPairs <$> entries.mapM (readEntry key reads)
  | some _ => .error (.tableNotMapping key)

def readList (document : Entries) (key : String) : Except ConfigFault (List String) :=
  match present? document key with
  | none => .ok []
  | some (.list items) => .ok (items.map (·.display))
  | some _ => .error (.tableNotList key)

def optionalPhrase : Value → Option (Option Phrase)
  | .scalar .null => some none
  | value => (Phrase.ofValue? value).map some

/-- The names in a phrase: the items of a list, or the characters of a text. -/
def namesOf : Phrase → List String
  | .text value => value.toList.map (·.toString)
  | .items values => values.map (·.display)

def readShortcut (value : Value) : Except ConfigFault Pattern :=
  match Pattern.ofText value.display with
  | .error fault => .error (.invalidShortcut value fault)
  | .ok pattern =>
      if (pattern.names.lookup "shortcut").isSome then .ok pattern
      else .error (.shortcutWithoutGroup value)

def readShortcuts (entry : String × Phrase) : Except ConfigFault (String × List Pattern) :=
  match entry.2 with
  | .items values => (fun patterns => (entry.1, patterns)) <$> values.mapM readShortcut
  | .text _ => .error (.shortcutsNotList entry.1)

/-- The tables of a document; other keys are left aside. -/
def ofDocument (document : Entries) : Except ConfigFault Tables := do
  let deprecatedDependencies ← readMapping document "deprecated_dependencies" optionalPhrase
  let templateComments ← readList document "template_comments"
  let fileMethods ← readList document "fileutils_methods"
  let compilers ← readMapping document "compilers" Phrase.ofValue?
  let shortcuts ← readMapping document "path_shortcuts" Phrase.ofValue?
  let pathShortcuts ← shortcuts.mapM readShortcuts
  let vendoredLanguages ← readList document "vendored_languages"
  let environmentCommands ← readList document "environment_commands"
  let dependencyTags ← readList document "dependency_tags"
  let legacySystemChecks ← readList document "legacy_macos_checks"
  let deprecatedEnvironmentMethods ←
    readMapping document "deprecated_env_methods" Phrase.ofValue?
  let deprecatedConstants ← readMapping document "deprecated_constants" Phrase.ofValue?
  return {
    deprecatedDependencies := deprecatedDependencies
    templateComments := templateComments
    fileMethods := sortedSet fileMethods
    compilers := compilers.mapValues namesOf
    pathShortcuts := pathShortcuts
    vendoredLanguages := vendoredLanguages
    environmentCommands := environmentCommands
    dependencyTags := sortedSet dependencyTags
    legacySystemChecks := sortedSet legacySystemChecks
    deprecatedEnvironmentMethods := deprecatedEnvironmentMethods
    deprecatedConstants := deprecatedConstants }

/-! ## Writing tables as a document -/

def listValue (names : List String) : Value :=
  .list (names.map Value.text)

def mappingValue {α : Type} (write : α → Value) (dictionary : Dictionary α) : Value :=
  .mapping (dictionary.map fun entry => (.text entry.1, write entry.2))

def optionalPhraseValue : Option Phrase → Value
  | none => .null
  | some phrase => phrase.toValue

def toDocument (tables : Tables) : Entries := [
  (.text "deprecated_dependencies",
    mappingValue optionalPhraseValue tables.deprecatedDependencies),
  (.text "template_comments", listValue tables.templateComments),
  (.text "fileutils_methods", listValue tables.fileMethods),
  (.text "compilers", mappingValue listValue tables.compilers),
  (.text "path_shortcuts",
    mappingValue (fun patterns => listValue (patterns.map (·.text))) tables.pathShortcuts),
  (.text "vendored_languages", listValue tables.vendoredLanguages),
  (.text "environment_commands", listValue tables.environmentCommands),
  (.text "dependency_tags", listValue tables.dependencyTags),
  (.text "legacy_macos_checks", listValue tables.legacySystemChecks),
  (.text "deprecated_env_methods", mappingValue Phrase.toValue tables.deprecatedEnvironmentMethods),
  (.text "deprecated_constants", mappingValue Phrase.toValue tables.deprecatedConstants)]

/-! ## Layering -/

def extendList (items additions : List Value) : List Value :=
  additions.foldl (fun items addition =>
    if items.any addition.same then items else items ++ [addition]) items

/-- A mapping is updated by a mapping, a list extended by a list; anything else takes the place of
what was there. -/
def layerValue (current : Option Value) (value : Value) : Value :=
  match current, value with
  | some (.mapping entries), .mapping additions => .mapping (Entries.putAll entries additions)
  | some (.list items), .list additions => .list (extendList items additions)
  | _, value => value

def layerEntries (base additions : Entries) : Entries :=
  additions.foldl (fun base addition =>
    let current := (base.find? fun entry => entry.1.same addition.1).map (·.2)
    Entries.put addition.1 (layerValue current addition.2) base) base

def merge (tables : Tables) (document : Entries) : Except ConfigFault Tables :=
  ofDocument (layerEntries tables.toDocument document)

end Tables

end FormulaLint
