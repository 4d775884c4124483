import FormulaLint.Proofs.StrippedOptions
import FormulaLint.Proofs.TableRoundTrip
import FormulaLint.Rules.Command

/-! Compilers that are called by their names. The names are those that the table of compilers lists
under its helpers, and the first helper with the name of the compiler is the one to use. A helper
without names is taken for one with the empty name. -/

namespace FormulaLint.Rules

variable {names : List String} {command : List Char} {name helper : String}
  {compilers : Dictionary (List String)}

/-! ## Programs that are run -/

/-- A command runs a program if it starts with the name of the program, as it is or in the directory
of compilers, and is over behind the name or goes on with white space. -/
def RunsProgram (name : String) (command : List Char) : Prop :=
  ∃ directory ∈ ["", compilerDirectory], ∃ arguments : List Char,
    command = (directory ++ name).toList ++ arguments ∧
      ∀ c ∈ arguments.head?, Character.isBlank c = true

theorem endsWord_iff {chars : List Char} :
    Text.endsWord chars = true ↔ ∀ c ∈ chars.head?, Character.isBlank c = true := by
  cases chars with
  | nil => simp [Text.endsWord]
  | cons c rest => simp [Text.endsWord]

def leads (name : String) (command : List Char) : Bool :=
  (Text.stripFront name.toList command).any Text.endsWord

theorem leads_iff : leads name command = true ↔
    ∃ arguments, command = name.toList ++ arguments ∧
      ∀ c ∈ arguments.head?, Character.isBlank c = true := by
  simp only [leads, Option.any_eq_true, Text.stripFront_eq_some_iff, endsWord_iff]

theorem runsProgram_iff : RunsProgram name command ↔
    (∃ rest, command = compilerDirectory.toList ++ rest ∧ leads name rest = true) ∨
      leads name command = true := by
  simp only [RunsProgram, leads_iff, List.mem_cons, List.not_mem_nil, or_false]
  constructor
  · rintro ⟨directory, rfl | rfl, arguments, parted, blank⟩
    · rw [String.empty_append] at parted
      exact .inr ⟨arguments, parted, blank⟩
    · rw [String.toList_append, List.append_assoc] at parted
      exact .inl ⟨_, parted, arguments, rfl, blank⟩
  · rintro (⟨rest, parted, arguments, rfl, blank⟩ | ⟨arguments, parted, blank⟩)
    · refine ⟨compilerDirectory, .inr rfl, arguments, ?_, blank⟩
      rw [parted, String.toList_append, List.append_assoc]
    · refine ⟨"", .inl rfl, arguments, ?_, blank⟩
      rw [parted, String.empty_append]

instance (name : String) (command : List Char) : Decidable (RunsProgram name command) :=
  decidable_of_iff
    ((Text.stripFront compilerDirectory.toList command).any (leads name) = true ∨
      leads name command = true) (by
    simp only [runsProgram_iff, Option.any_eq_true, Text.stripFront_eq_some_iff])

/-! ## The names of a helper -/

def namesCompared (names : List String) : List String :=
  if names.isEmpty then [""] else names

private theorem leadingName?_eq_some (found : leadingName? names command = some name) :
    name ∈ names ∧ leads name command = true := by
  have chosen : names.find? (leads · command) = some name := found
  have begins := List.find?_some chosen
  exact ⟨List.mem_of_find?_eq_some chosen, begins⟩

theorem isSome_leadingName?_iff :
    (leadingName? names command).isSome = true ↔ ∃ name ∈ names, leads name command = true :=
  List.find?_isSome

private theorem compilerIn?_eq_some {length : Nat}
    (found : compilerIn? names command = some (name, length)) :
    name ∈ namesCompared names ∧ RunsProgram name command := by
  rw [runsProgram_iff]
  simp only [compilerIn?, Option.bind_eq_bind, Option.pure_def] at found
  split at found
  · next inDirectory =>
      rw [Option.some.inj found] at inDirectory
      simp only [Option.bind_eq_some_iff, Option.some.injEq, Prod.mk.injEq,
        Text.stripFront_eq_some_iff] at inDirectory
      rcases inDirectory with ⟨rest, parted, other, leading, rfl, -⟩
      rcases leadingName?_eq_some leading with ⟨listed, begins⟩
      exact ⟨listed, .inl ⟨rest, parted, begins⟩⟩
  · rcases Option.map_eq_some_iff.mp found with ⟨other, leading, equal⟩
    cases equal
    rcases leadingName?_eq_some leading with ⟨listed, begins⟩
    exact ⟨listed, .inr begins⟩

theorem compilerIn?_eq_none (unfound : compilerIn? names command = none) :
    ∀ name ∈ namesCompared names, ¬RunsProgram name command := by
  intro name listed runs
  simp only [compilerIn?, Option.bind_eq_bind, Option.pure_def] at unfound
  split at unfound
  · cases unfound
  · next notInDirectory =>
      rcases runsProgram_iff.mp runs with ⟨rest, parted, begins⟩ | begins
      · have leading := isSome_leadingName?_iff.mpr ⟨name, listed, begins⟩
        rcases Option.isSome_iff_exists.mp leading with ⟨other, found⟩
        rw [namesCompared] at found
        rw [Text.stripFront_eq_some_iff.mpr parted, Option.bind_some, found] at notInDirectory
        cases notInDirectory
      · have leading := isSome_leadingName?_iff.mpr ⟨name, listed, begins⟩
        rw [Option.map_eq_none_iff] at unfound
        rw [namesCompared, unfound] at leading
        cases leading

/-! ## The helper to use -/

/-- The first helper of a table under which a program is listed that the command runs. -/
def firstListed? (compilers : Dictionary (List String)) (command : List Char) :
    Option (String × List String) :=
  compilers.find? fun entry => entry.2.any fun name => decide (RunsProgram name command)

theorem runs_iff {names : List String} :
    (names.any fun name => decide (RunsProgram name command)) = true ↔
      ∃ name ∈ names, RunsProgram name command := by
  simp only [List.any_eq_true, decide_eq_true_eq]

/-- What the rule finds is the first helper of the table of the names that are compared. -/
theorem compilerHelper?_eq_some {length : Nat}
    (found : compilerHelper? compilers command = some (helper, name, length)) :
    ∃ names, firstListed? (compilers.mapValues namesCompared) command = some (helper, names) ∧
      name ∈ names ∧ RunsProgram name command := by
  rcases List.findSome?_eq_some_iff.mp found with ⟨front, entry, back, parted, inEntry, passed⟩
  rcases Option.map_eq_some_iff.mp inEntry with ⟨⟨other, spelled⟩, chosen, equal⟩
  cases equal
  rcases compilerIn?_eq_some chosen with ⟨listed, runs⟩
  refine ⟨namesCompared entry.2, ?_, listed, runs⟩
  rw [firstListed?, Dictionary.mapValues, parted, List.map_append, List.map_cons,
    List.find?_append, List.find?_eq_none.mpr, Option.none_or, List.find?_cons_of_pos]
  · exact runs_iff.mpr ⟨_, listed, runs⟩
  · intro mapped member chosen
    rcases List.mem_map.mp member with ⟨earlier, before, rfl⟩
    rcases runs_iff.mp chosen with ⟨another, compared, runsOther⟩
    have unfound := Option.map_eq_none_iff.mp (passed earlier before)
    exact compilerIn?_eq_none unfound another compared runsOther

private theorem compilerHelper?_eq_none (unfound : compilerHelper? compilers command = none) :
    firstListed? (compilers.mapValues namesCompared) command = none := by
  rw [firstListed?, Dictionary.mapValues, List.find?_eq_none]
  intro mapped member chosen
  rcases List.mem_map.mp member with ⟨entry, listed, rfl⟩
  rcases runs_iff.mp chosen with ⟨name, compared, runs⟩
  have unchosen := Option.map_eq_none_iff.mp (List.findSome?_eq_none_iff.mp unfound entry listed)
  exact compilerIn?_eq_none unchosen name compared runs

/-! ## Reports -/

def helperReference (helper : String) : String :=
  "#\x7bENV." ++ helper ++ "\x7d"

structure Suggests (draft : Draft) (helper name : String) : Prop where
  message : draft.message = .text
    ("Use \"" ++ helperReference helper ++ "\" instead of hard-coding \"" ++ name ++ "\"")
  replacement : ∀ fix, draft.fix = some fix → fix.replacement = .text (helperReference helper)

/-- The drafts for a command are those of a table if there is one for the first helper under which
a name of the compiler is listed, with such a name, and none if the compiler is not listed. -/
def FollowTable (compilers : Dictionary (List String)) (command : List Char)
    (drafts : List Draft) : Prop :=
  match firstListed? compilers command with
  | none => drafts = []
  | some (helper, names) => ∃ draft, drafts = [draft] ∧
      ∃ name ∈ names, RunsProgram name command ∧ Suggests draft helper name

theorem followTable_namesCompared (context : Surroundings) (site : Site) {literal : Node}
    {content : String} (found : commandLiteral? site.node = some literal)
    (contentEq : literal.stringContent? = some content) :
    ∃ drafts, hardcodedCompiler.detect context site = some drafts ∧
      FollowTable (context.tables.compilers.mapValues namesCompared) content.toList drafts := by
  refine ⟨_, Rule.detect_correcting _ _ _ _ context site, ?_⟩
  rw [FollowTable]
  simp only [found, contentEq, Option.bind_some]
  cases chosen : compilerHelper? context.tables.compilers content.toList with
  | none =>
      rw [compilerHelper?_eq_none chosen]
  | some result =>
      rcases result with ⟨helper, name, length⟩
      rcases compilerHelper?_eq_some chosen with ⟨names, first, listed, runs⟩
      rw [first]
      refine ⟨_, rfl, name, listed, runs, rfl, ?_⟩
      intro fix has
      dsimp only [Node.reportAt] at has
      split at has
      · cases has
        rfl
      · cases has

/-! ## Helpers without names -/

private theorem mem_namesCompared (listed : name ∈ names) : name ∈ namesCompared names := by
  rw [namesCompared, if_neg]
  · exact listed
  · rw [List.isEmpty_iff]
    rintro rfl
    cases listed

/-- In front of every helper without names there is one that has the empty name. -/
def EmptyNameFirst (compilers : Dictionary (List String)) : Prop :=
  ∀ front helper back, compilers = front ++ (helper, []) :: back → ∃ entry ∈ front, "" ∈ entry.2

theorem firstListed?_namesCompared (emptyFirst : EmptyNameFirst compilers) :
    firstListed? (compilers.mapValues namesCompared) command = firstListed? compilers command := by
  have unmapped {entry : String × List String}
      (chosen : ¬((namesCompared entry.2).any fun name =>
        decide (RunsProgram name command)) = true) :
      ¬(entry.2.any fun name => decide (RunsProgram name command)) = true := by
    rw [runs_iff] at chosen ⊢
    rintro ⟨name, listed, runs⟩
    exact chosen ⟨name, mem_namesCompared listed, runs⟩
  rw [firstListed?, firstListed?, Dictionary.mapValues, List.find?_map]
  cases found : compilers.find? (_ ∘ _) with
  | none =>
      rw [List.find?_eq_none] at found
      rw [eq_comm, Option.map_none, List.find?_eq_none]
      intro entry listed
      exact unmapped (found entry listed)
  | some entry =>
      rcases List.find?_eq_some_iff_append.mp found with ⟨chosen, front, back, parted, passed⟩
      have named : entry.2 ≠ [] := by
        intro nameless
        rcases emptyFirst front entry.1 back (by rw [parted, ← nameless]) with
          ⟨earlier, before, empty⟩
        -- The empty name is the only one that the helper could have been chosen for.
        have runs : RunsProgram "" command := by
          simpa [nameless, namesCompared] using chosen
        have runsEarlier : ((namesCompared earlier.2).any fun name =>
            decide (RunsProgram name command)) = true :=
          runs_iff.mpr ⟨"", mem_namesCompared empty, runs⟩
        have skipped := passed earlier before
        simp only [Function.comp_apply, runsEarlier, Bool.not_true, Bool.false_eq_true] at skipped
      have same : namesCompared entry.2 = entry.2 := by
        rw [namesCompared, if_neg]
        rwa [List.isEmpty_iff]
      rw [Option.map_some, same, eq_comm, List.find?_eq_some_iff_append]
      refine ⟨?_, front, back, parted, ?_⟩
      · simpa only [Function.comp_apply, same] using chosen
      · intro earlier before
        have skipped := passed earlier before
        simp only [Function.comp_apply, Bool.not_eq_true'] at skipped ⊢
        exact Bool.eq_false_iff.mpr (unmapped (Bool.eq_false_iff.mp skipped))

/-! ### Commands that are run -/

def systemCall (command : String) : Node :=
  let literal := quotedOption "\"" command 7 1 (8 + command.length)
  ⟨"call", true, none, ⟨1, 0, 1, literal.stop, 0, literal.stop⟩, "system " ++ literal.text, [
    .onLine "identifier" true (some "method") 0 6 "system" [],
    ⟨"argument_list", true, some "arguments", literal.extent, literal.text, [literal]⟩]⟩

theorem commandLiteral?_systemCall (command : String) :
    commandLiteral? (systemCall command) =
      some (quotedOption "\"" command 7 1 (8 + command.length)) := by
  have content := stringContent?_quotedOption "\"" command 7 1 (8 + command.length)
  have first : (systemCall command).firstArgument? =
      some (quotedOption "\"" command 7 1 (8 + command.length)) := rfl
  have calls : (systemCall command).calls ["system"] .nothing = true := rfl
  have label : (systemCall command).label = "call" := rfl
  rw [commandLiteral?, label, if_neg (by decide), commandRun?, if_pos calls, first]
  simp [content]

theorem runsProgram_nil_iff : RunsProgram name [] ↔ name = "" := by
  constructor
  · rintro ⟨directory, -, arguments, parted, -⟩
    have none := (List.append_eq_nil_iff.mp parted.symm).1
    rw [String.toList_append, List.append_eq_nil_iff] at none
    exact String.toList_eq_nil_iff.mp none.2
  · rintro rfl
    decide

theorem Suggests.helper_eq {draft : Draft} {other : String} (suggests : Suggests draft helper name)
    (suggestsOther : Suggests draft other name) : helper = other := by
  have same := suggests.message.symm.trans suggestsOther.message
  simpa [helperReference] using same

theorem exists_firstListed?_nil {front back : Dictionary (List String)}
    (parted : compilers = front ++ (helper, []) :: back) :
    ∃ entry ∈ front ++ [(helper, [])],
      firstListed? (compilers.mapValues namesCompared) [] =
        some (entry.1, namesCompared entry.2) := by
  have runsEmpty : ([""].any fun name => decide (RunsProgram name [])) = true := by
    decide
  have reached : ∃ entry ∈ front ++ [(helper, [])],
      ((namesCompared entry.2).any fun name => decide (RunsProgram name [])) = true :=
    ⟨(helper, []), by simp, runsEmpty⟩
  rcases Option.isSome_iff_exists.mp (List.find?_isSome.mpr reached) with ⟨entry, found⟩
  refine ⟨entry, List.mem_of_find?_eq_some found, ?_⟩
  rw [firstListed?, Dictionary.mapValues, List.find?_map, parted, List.append_cons,
    List.find?_append]
  simp only [Function.comp_def, found, Option.some_or, Option.map_some]

/-- One draft cannot be for a helper without names and follow the table. -/
theorem emptyNameFirst_of_followTable (distinct : compilers.names.Nodup)
    {drafts : List Draft} (follows : FollowTable compilers [] drafts)
    (followsCompared : FollowTable (compilers.mapValues namesCompared) [] drafts) :
    EmptyNameFirst compilers := by
  intro front helper back parted
  rcases exists_firstListed?_nil parted with ⟨entry, reached, first⟩
  rw [FollowTable, first] at followsCompared
  rcases followsCompared with ⟨draft, rfl, name, -, runs, suggests⟩
  rw [FollowTable] at follows
  cases listedFirst : firstListed? compilers [] with
  | none =>
      rw [listedFirst] at follows
      cases follows
  | some other =>
      rw [listedFirst] at follows
      rcases follows with ⟨_, same, otherName, listed, otherRuns, otherSuggests⟩
      cases same
      rw [runsProgram_nil_iff] at runs otherRuns
      subst runs otherRuns
      have inTable : entry ∈ compilers := by
        rw [parted, List.append_cons]
        exact List.mem_append_left back reached
      have equal : entry = other := List.inj_on_of_nodup_map distinct inTable
        (List.mem_of_find?_eq_some listedFirst) (suggests.helper_eq otherSuggests)
      refine ⟨entry, ?_, equal ▸ listed⟩
      rcases List.mem_append.mp reached with before | last
      · exact before
      · rw [← equal, List.mem_singleton.mp last] at listed
        cases listed

/-- The rule follows an accepted table on every literal if and only if no helper without names is
ever reached, that is, if there is one with the empty name in front of each. -/
theorem hardcodedCompiler_followsTable_iff {document : Entries} {tables : Tables}
    (accepted : Tables.ofDocument document = .ok tables) :
    (∀ (context : Surroundings) (site : Site) (literal : Node) (content : String),
      context.tables = tables → commandLiteral? site.node = some literal →
        literal.stringContent? = some content →
          ∃ drafts, hardcodedCompiler.detect context site = some drafts ∧
            FollowTable tables.compilers content.toList drafts) ↔
      EmptyNameFirst tables.compilers := by
  have listed : Tables.compilerTable ∈ Tables.mappingTables := by
    simp [Tables.mappingTables]
  have distinct : tables.compilers.names.Nodup :=
    ((Tables.canonical_of_ofDocument accepted).mappings _ listed).distinct
  constructor
  · intro follows
    let node := systemCall ""
    let context : Surroundings := { Surroundings.ofLine node.text node with tables := tables }
    have found := commandLiteral?_systemCall ""
    have content := stringContent?_quotedOption "\"" "" 7 1 8
    rcases follows context ⟨node, []⟩ _ "" rfl found content with ⟨drafts, detected, followed⟩
    rcases followTable_namesCompared context ⟨node, []⟩ found content with
      ⟨others, othersDetected, followedCompared⟩
    cases detected.symm.trans othersDetected
    exact emptyNameFirst_of_followTable distinct followed followedCompared
  · rintro emptyFirst context site literal content rfl found contentEq
    rcases followTable_namesCompared context site found contentEq with
      ⟨drafts, detected, followed⟩
    refine ⟨drafts, detected, ?_⟩
    rwa [FollowTable, firstListed?_namesCompared emptyFirst] at followed

def runningWith (command : String) (compilers : Dictionary (List String)) : Surroundings :=
  { Surroundings.ofLine (systemCall command).text (systemCall command) with
    tables := { compilers := compilers } }

/-- A name that is the front of another one is no word of the command: the helper of the longer name
is suggested. -/
theorem hardcodedCompiler_followsTable_clang :
    let compilers := [("cc", ["gcc", "clang"]), ("cxx", ["g++", "clang++"])]
    let document : Entries := [(.text "compilers", Packaged.table
      [("cc", Packaged.texts ["gcc", "clang"]), ("cxx", Packaged.texts ["g++", "clang++"])])]
    Tables.ofDocument document = .ok { compilers := compilers } ∧
      ∃ draft, hardcodedCompiler.detect (runningWith "/usr/bin/clang++ x" compilers)
          ⟨systemCall "/usr/bin/clang++ x", []⟩ = some [draft] ∧
        Suggests draft "cxx" "clang++" := by
  intro compilers document
  have accepted : Tables.ofDocument document = .ok { compilers := compilers } := rfl
  have emptyFirst : EmptyNameFirst compilers := by
    intro front helper back parted
    have member : (helper, []) ∈ compilers := by
      rw [parted]
      exact List.mem_append_right front List.mem_cons_self
    simp [compilers] at member
  have content := stringContent?_quotedOption "\"" "/usr/bin/clang++ x" 7 1 26
  have follows := (hardcodedCompiler_followsTable_iff accepted).mpr emptyFirst
  rcases follows (runningWith "/usr/bin/clang++ x" compilers)
    ⟨systemCall "/usr/bin/clang++ x", []⟩ _ _ rfl (commandLiteral?_systemCall _) content with
    ⟨drafts, detected, followed⟩
  have first : firstListed? compilers "/usr/bin/clang++ x".toList =
      some ("cxx", ["g++", "clang++"]) := by
    decide
  rw [FollowTable, first] at followed
  rcases followed with ⟨draft, rfl, name, listed, runs, suggests⟩
  have only : ∀ name ∈ ["g++", "clang++"],
      RunsProgram name "/usr/bin/clang++ x".toList → name = "clang++" := by
    decide
  rw [only name listed runs] at suggests
  exact ⟨accepted, draft, detected, suggests⟩

/-- A helper without names is suggested for the empty command, though nothing is listed under it. -/
theorem not_followTable_namelessHelper :
    let compilers := [("cc", [])]
    let context := runningWith "" compilers
    let site : Site := ⟨systemCall "", []⟩
    Tables.ofDocument [(.text "compilers", Packaged.table [("cc", Packaged.texts [])])] =
        .ok { compilers := compilers } ∧
      site.node.LaidOutBelow context.source ∧
      (∃ literal, commandLiteral? site.node = some literal ∧ literal.stringContent? = some "") ∧
      (∃ draft, hardcodedCompiler.detect context site = some [draft] ∧ Suggests draft "cc" "") ∧
      ¬∃ drafts, hardcodedCompiler.detect context site = some drafts ∧
        FollowTable compilers [] drafts := by
  intro compilers context site
  have found := commandLiteral?_systemCall ""
  have content := stringContent?_quotedOption "\"" "" 7 1 8
  have compared : ∃ drafts, hardcodedCompiler.detect context site = some drafts ∧
      FollowTable [("cc", [""])] [] drafts :=
    followTable_namesCompared context site found content
  have first : firstListed? [("cc", [""])] [] = some ("cc", [""]) := by
    decide
  rcases compared with ⟨drafts, detected, followed⟩
  rw [FollowTable, first] at followed
  rcases followed with ⟨draft, rfl, name, listed, -, suggests⟩
  rw [List.mem_singleton.mp listed] at suggests
  refine ⟨rfl, by decide, ⟨_, found, content⟩, ⟨draft, detected, suggests⟩, ?_⟩
  rintro ⟨drafts, again, follows⟩
  cases detected.symm.trans again
  cases follows

end FormulaLint.Rules
