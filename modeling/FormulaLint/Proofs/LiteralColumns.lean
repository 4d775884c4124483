import FormulaLint.Proofs.BuiltInDrafts
import FormulaLint.Proofs.StrippedOptions

/-! Columns inside literals. What a rule finds in the content of a literal is reported at a column
that is counted from one behind the start of the literal. That is where it stands if the opening of
the literal is a single character wide, and only then. -/

namespace FormulaLint

variable {formula : Formula} {source content : String} {literal : Node} {first offset : Nat}

namespace Node

/-! ## Where the content starts -/

theorem LaidOutBelow.exists_contentStart (below : literal.LaidOutBelow source) :
    ∃ first : Nat, literal.contentBounds.1 = first ∧ literal.start ≤ first := by
  by_cases several : 2 ≤ literal.children.length
  · rcases literal.exists_content_between several with ⟨opening, closing, listed, bounds, -⟩
    have inside := below.bounds (.child .self (listed.subset List.mem_cons_self))
    exact ⟨opening.stop, by rw [bounds], by omega⟩
  · rcases literal.content_of_few_children (by omega) with ⟨bounds, -⟩
    exact ⟨literal.start + 1, by rw [bounds]; rfl, by omega⟩

theorem LaidOutBelow.content_prefix (below : literal.LaidOutBelow source)
    (contentEq : literal.stringContent? = some content)
    (starts : literal.contentBounds.1 = first) :
    content.toList <+: source.toList.drop first := by
  by_cases room : literal.HasRoom
  · rcases below.content_eq contentEq room with ⟨start, stop, bounds, -, -, -, rfl⟩
    have same : start = first := by
      rw [bounds] at starts
      exact Int.ofNat.inj starts
    rw [same, Text.toList_slice_natCast, List.drop_take]
    exact List.take_prefix _ _
  · rw [literal.content_eq_empty contentEq room]
    exact List.nil_prefix

/-- A literal opens on one line if its content starts on the line on which it starts itself. -/
def OpensOnLine (literal : Node) (source : String) : Prop :=
  '\n' ∉ (Text.slice source literal.start literal.contentBounds.1).toList

instance (literal : Node) (source : String) : Decidable (literal.OpensOnLine source) :=
  inferInstanceAs (Decidable ¬_)

theorem OpensOnLine.plain_upTo (opens : literal.OpensOnLine source)
    (below : literal.LaidOutBelow source) (contentEq : literal.stringContent? = some content)
    (starts : literal.contentBounds.1 = first)
    (inLine : offset ≤ (Flag.firstLine content.toList).length) :
    '\n' ∉ (source.toList.take (first + offset)).drop literal.start := by
  intro lineFeed
  rw [List.take_add, List.drop_append, List.mem_append] at lineFeed
  rcases lineFeed with inOpening | inContent
  · apply opens
    rwa [starts, Text.toList_slice_natCast]
  · have front : Flag.firstLine content.toList <+: source.toList.drop first :=
      (List.takeWhile_prefix _).trans (below.content_prefix contentEq starts)
    have taken : (source.toList.drop first).take offset <+: Flag.firstLine content.toList := by
      rw [List.prefix_iff_eq_take.mp front]
      exact List.take_prefix_take_left inLine
    exact Flag.not_mem_firstLine content.toList (taken.subset (List.mem_of_mem_drop inContent))

end Node

/-! ## Where it is reported -/

/-- A character in the first line of the content stands on the line of the literal, as far behind
its column as behind its start. -/
theorem Formula.ReadFrom.place_in_content (read : formula.ReadFrom source)
    (below : formula.root.LaidOutBelow source) (contained : formula.root.Contains literal)
    (contentEq : literal.stringContent? = some content) (opens : literal.OpensOnLine source)
    (starts : literal.contentBounds.1 = first) (behind : literal.start ≤ first)
    (inLine : offset ≤ (Flag.firstLine content.toList).length) :
    Text.lineAndColumn source.toList (first + offset) =
      (literal.line, literal.column + (first + offset - literal.start)) := by
  have plain := opens.plain_upTo (below.of_contains contained) contentEq starts inLine
  rw [Text.lineAndColumn_of_plain (by omega) plain, ← read.place_eq contained]

theorem Formula.ReadFrom.exists_place_iff (read : formula.ReadFrom source)
    (below : formula.root.LaidOutBelow source) (contained : formula.root.Contains literal)
    (contentEq : literal.stringContent? = some content) (opens : literal.OpensOnLine source) :
    ∃ first : Nat, literal.contentBounds.1 = first ∧
      ∀ offset ≤ (Flag.firstLine content.toList).length,
        (Text.lineAndColumn source.toList (first + offset) =
          (literal.line, literal.columnInLiteral offset) ↔ first = literal.start + 1) := by
  rcases (below.of_contains contained).exists_contentStart with ⟨first, starts, behind⟩
  refine ⟨first, starts, ?_⟩
  intro offset inLine
  rw [read.place_in_content below contained contentEq opens starts behind inLine,
    Node.columnInLiteral, Prod.mk.injEq, eq_self_iff_true, true_and]
  omega

/-! ## Rules about contents -/

namespace Rules

variable {rule : Rule} {context : Surroundings} {site : Site} {draft : Draft}
  {family name message : String} {kinds : List SyntaxKind}
  {inspect : Surroundings → Site → List Draft}

/-- A draft for the content of a literal below a site. It is reported where the content is taken to
start. Its fix is put in where the content does start, unless all of the site is replaced. -/
structure ForContent (draft : Draft) (site : Site) (literal : Node) : Prop where
  contained : site.node.Contains literal
  content : literal.stringContent?.isSome = true
  line : draft.line = literal.line
  column : draft.column = literal.columnInLiteral 0
  fix : ∀ fix, draft.fix = some fix →
    fix.start = literal.contentBounds.1 ∨ ∃ text, fix = site.node.replacedBy text

/-- A rule is about contents if each of its drafts is for the content of a literal. -/
def AboutContents (rule : Rule) : Prop :=
  ∀ (context : Surroundings) (site : Site) (draft : Draft), rule.Drafts context site draft →
    ∃ literal, ForContent draft site literal

theorem aboutContents_correcting
    (inspects : ∀ (context : Surroundings) (site : Site), ∀ draft ∈ inspect context site,
      ∃ literal, ForContent draft site literal) :
    AboutContents (.correcting family name kinds inspect) :=
  fun context site draft drafted =>
    inspects context site draft (Rule.drafts_correcting_iff.mp drafted).2

theorem aboutContents_convention
    (inspects : ∀ (context : Surroundings) (site : Site), ∀ draft ∈ inspect context site,
      ∃ literal, ForContent draft site literal) :
    AboutContents (.convention family name kinds inspect) := by
  rintro context site draft ⟨-, drafts, detected, member⟩
  cases detected
  rcases List.mem_map.mp member with ⟨found, listed, rfl⟩
  rcases inspects context site found listed with ⟨literal, forContent⟩
  exact ⟨literal, forContent.contained, forContent.content, forContent.line, forContent.column,
    nofun⟩

theorem exists_forContent {found : Option Fix} (contained : site.node.Contains literal)
    (contentEq : literal.stringContent? = some content)
    (member : draft ∈ [literal.reportAt (literal.columnInLiteral 0) message found])
    (placed : ∀ fix, found = some fix →
      fix.start = literal.contentBounds.1 ∨ ∃ text, fix = site.node.replacedBy text) :
    ∃ literal, ForContent draft site literal := by
  rw [List.mem_singleton.mp member]
  exact ⟨literal, contained, by rw [contentEq]; rfl, rfl, rfl, placed⟩

theorem start_or_replaced_of_write {start stop : Int} {text : String} (node : Node) :
    ∀ fix, some (Fix.write start stop text) = some fix →
      fix.start = start ∨ ∃ text, fix = node.replacedBy text := by
  rintro fix ⟨⟩
  exact .inl rfl

theorem start_or_replaced_of_replacedBy {start : Int} {text : String} (node : Node) :
    ∀ fix, some (node.replacedBy text) = some fix →
      fix.start = start ∨ ∃ text, fix = node.replacedBy text := by
  rintro fix ⟨⟩
  exact .inr ⟨text, rfl⟩

private theorem aboutContents_installNameTool : AboutContents installNameTool := by
  refine aboutContents_convention ?_
  intro context site draft member
  split at member
  · next command run =>
      rcases contains_of_commandRun? run with ⟨contained, content⟩
      exact exists_forContent contained content member nofun
  · cases member

private theorem aboutContents_systemFileUtils : AboutContents systemFileUtils := by
  refine aboutContents_convention ?_
  intro context site draft member
  split at member
  · cases member
  · next command value run =>
      rcases contains_of_commandRun? run with ⟨contained, content⟩
      dsimp only at member
      split at member
      · exact exists_forContent contained content member nofun
      · cases member

private theorem aboutContents_shellEnvironment : AboutContents shellEnvironment := by
  refine aboutContents_convention ?_
  intro context site draft member
  split at member
  · cases member
  · next command value run =>
      rcases contains_of_commandRun? run with ⟨contained, content⟩
      split at member
      · cases member
      · exact exists_forContent contained content member nofun

private theorem aboutContents_hardcodedCompiler : AboutContents hardcodedCompiler := by
  refine aboutContents_correcting ?_
  intro context site draft member
  split at member
  · cases member
  · next literal found =>
      split at member
      · cases member
      · next helper name length chosen =>
          rcases Option.bind_eq_some_iff.mp chosen with ⟨value, content, -⟩
          refine exists_forContent (contains_of_commandLiteral? found) content member ?_
          intro fix has
          split at has
          · exact start_or_replaced_of_write site.node fix has
          · cases has

private theorem aboutContents_nonGlobDir : AboutContents nonGlobDir := by
  refine aboutContents_correcting ?_
  intro context site draft member
  split at member
  · split at member
    · next argument only =>
        split at member
        · cases member
        · next path content =>
            split at member
            · cases member
            · have contained : site.node.Contains argument :=
                Node.contains_of_mem_arguments (only ▸ List.mem_singleton_self argument)
              exact exists_forContent contained content member
                (start_or_replaced_of_replacedBy site.node)
    · cases member
  · cases member

private theorem contains_of_addedToMan? {node page : Node} (added : addedToMan? node = some page) :
    node.Contains page := by
  rw [addedToMan?] at added
  split at added
  · split at added
    · split at added
      · exact Node.contains_of_child? added
      · cases added
    · cases added
  · split at added
    · split at added
      · next argument only =>
          split at added
          · have contained : node.Contains argument :=
              Node.contains_of_mem_arguments (only ▸ List.mem_singleton_self argument)
            exact contained.trans (Node.contains_of_child? added)
          · cases added
      · cases added
    · cases added

private theorem aboutContents_manPathConcatenation : AboutContents manPathConcatenation := by
  refine aboutContents_correcting ?_
  intro context site draft member
  split at member
  · cases member
  · next page added =>
      split at member
      · cases member
      · next value content =>
          split at member
          · exact exists_forContent (contains_of_addedToMan? added) content member
              (start_or_replaced_of_replacedBy site.node)
          · cases member

private theorem aboutContents_argvHeadFlag : AboutContents argvHeadFlag := by
  refine aboutContents_correcting ?_
  intro context site draft member
  split at member
  · cases member
  · split at member
    · cases member
    · next flag first =>
        split at member
        · cases member
        · next value content =>
            split at member
            · cases member
            · exact exists_forContent (Node.contains_of_firstArgument? first) content member
                (start_or_replaced_of_replacedBy site.node)

private theorem aboutContents_duplicatedFlagPrefix : AboutContents duplicatedFlagPrefix := by
  refine aboutContents_correcting ?_
  intro context site draft member
  split at member
  · split at member
    · next option value query argument called =>
        rcases contains_of_literalArgument? argument with ⟨contained, content⟩
        dsimp only at member
        split at member
        · exact exists_forContent contained content member
            (start_or_replaced_of_write site.node)
        · cases member
    · cases member
  · cases member

private theorem aboutContents_includeQuery : AboutContents includeQuery := by
  refine aboutContents_correcting ?_
  intro context site draft member
  split at member
  · split at member
    · cases member
    · next option value argument =>
        rcases contains_of_literalArgument? argument with ⟨contained, content⟩
        split at member
        · cases member
        · exact exists_forContent contained content member
            (start_or_replaced_of_replacedBy site.node)
  · cases member

private theorem aboutContents_dashedFlag : AboutContents dashedFlag := by
  refine aboutContents_correcting ?_
  intro context site draft member
  split at member
  · split at member
    · cases member
    · next option value argument =>
        rcases contains_of_literalArgument? argument with ⟨contained, content⟩
        split at member
        · cases member
        · exact exists_forContent contained content member
            (start_or_replaced_of_write site.node)
  · cases member

def contentRules : List Rule :=
  [duplicatedFlagPrefix, includeQuery, dashedFlag, installNameTool, nonGlobDir, systemFileUtils,
    argvHeadFlag, manPathConcatenation, hardcodedCompiler, shellEnvironment]

private theorem aboutContents_of_mem : ∀ rule ∈ contentRules, AboutContents rule := by
  simp only [contentRules, List.forall_mem_cons]
  exact ⟨aboutContents_duplicatedFlagPrefix, aboutContents_includeQuery, aboutContents_dashedFlag,
    aboutContents_installNameTool, aboutContents_nonGlobDir, aboutContents_systemFileUtils,
    aboutContents_argvHeadFlag, aboutContents_manPathConcatenation,
    aboutContents_hardcodedCompiler, aboutContents_shellEnvironment, List.forall_mem_nil _⟩

/-! ## Reported columns -/

/-- A draft is reported where a character of a text stands. -/
structure ReportedWhere (draft : Draft) (chars : List Char) (offset : Nat) : Prop where
  line : draft.line = (Text.lineAndColumn chars offset).1
  column : draft.column = (Text.lineAndColumn chars offset).2

theorem ForContent.reportedWhere_iff {chars : List Char}
    (forContent : ForContent draft site literal) :
    ReportedWhere draft chars offset ↔
      Text.lineAndColumn chars offset = (literal.line, literal.columnInLiteral 0) := by
  constructor
  · rintro ⟨line, column⟩
    rw [forContent.line] at line
    rw [forContent.column] at column
    exact Prod.ext (Int.ofNat.inj line).symm (Int.ofNat.inj column).symm
  · intro same
    exact ⟨by rw [same, forContent.line], by rw [same, forContent.column]⟩

/-- In a literal that opens on one line, the columns in the first line of the content are those that
are counted if and only if the content starts one character behind the literal. What the rules about
contents draft is then, and only then, reported where the content starts, which is where a fix is
put in that does not replace all of the site. -/
theorem columnInLiteral_eq_iff (read : formula.ReadFrom source)
    (below : formula.root.LaidOutBelow source) :
    (∀ (literal : Node) (content : String), formula.root.Contains literal →
      literal.stringContent? = some content → literal.OpensOnLine source →
        ∃ first : Nat, literal.contentBounds.1 = first ∧
          ∀ offset ≤ (Flag.firstLine content.toList).length,
            (Text.lineAndColumn source.toList (first + offset) =
              (literal.line, literal.columnInLiteral offset) ↔ first = literal.start + 1)) ∧
      ∀ rule ∈ contentRules, ∀ (context : Surroundings) (site : Site) (draft : Draft),
        formula.root.Contains site.node → rule.Drafts context site draft →
          ∃ literal, ForContent draft site literal ∧ (literal.OpensOnLine source →
            ∃ first : Nat, literal.contentBounds.1 = first ∧
              (ReportedWhere draft source.toList first ↔ first = literal.start + 1)) := by
  constructor
  · intro literal content contained contentEq opens
    exact read.exists_place_iff below contained contentEq opens
  · intro rule listed context site draft contained drafted
    rcases aboutContents_of_mem rule listed context site draft drafted with ⟨literal, forContent⟩
    refine ⟨literal, forContent, ?_⟩
    intro opens
    rcases Option.isSome_iff_exists.mp forContent.content with ⟨content, contentEq⟩
    rcases read.exists_place_iff below (contained.trans forContent.contained) contentEq opens with
      ⟨first, starts, placed⟩
    refine ⟨first, starts, ?_⟩
    rw [forContent.reportedWhere_iff]
    exact placed 0 (Nat.zero_le _)

/-! ### Queries on one line -/

def openedLiteral (start : Nat) (opening content closing : String) : Node :=
  let first := start + opening.length
  let last := first + content.length
  let stop := last + closing.length
  .onLine "string" true none start stop (opening ++ content ++ closing) [
    .onLine "\"" false none start first opening [],
    .onLine "string_content" true none first last content [],
    .onLine "\"" false none last stop closing []]

def withQuery (start : Nat) (option : Node) : Node :=
  .onLine "call" true none start option.stop ("build.with? " ++ option.text) [
    .onLine "identifier" true (some "receiver") start (start + 5) "build" [],
    .onLine "." false none (start + 5) (start + 6) "." [],
    .onLine "identifier" true (some "method") (start + 6) (start + 11) "with?" [],
    .onLine "argument_list" true (some "arguments") option.start option.stop option.text [option]]

theorem contains_withQuery (start : Nat) (option : Node) :
    (withQuery start option).Contains option :=
  .child (.child .self (.tail _ (.tail _ (.tail _ (.head _))))) (.head _)

def onLine (source : String) (statements : List Node) : Surroundings where
  formula := ⟨source, .onLine "program" true none 0 source.length source statements, false⟩
  provenance := ⟨none, none⟩
  tables := {}

def repeatedWordDraft (column start : Nat) : Draft where
  message := .text "Don't duplicate 'with': Use `build.with? \"x\"` to check for \"--with-x\""
  line := 1
  column := column
  fix := some (.write start (start + 6 : Nat) "x")

def accentedOption : Node :=
  openedLiteral 15 "\"" "with-x" "\""

def accentedQuery : Surroundings :=
  onLine "é; build.with? \"with-x\""
    [.onLine "identifier" true none 0 1 "é" [], withQuery 3 accentedOption]

private theorem readFrom_accentedQuery : accentedQuery.formula.ReadFrom accentedQuery.source :=
  ⟨⟨⟨"program", true, none, 0, 24, [⟨"identifier", true, none, 0, 2, []⟩,
    ⟨"call", true, none, 4, 24, [⟨"identifier", true, some "receiver", 4, 9, []⟩,
      ⟨".", false, none, 9, 10, []⟩, ⟨"identifier", true, some "method", 10, 15, []⟩,
      ⟨"argument_list", true, some "arguments", 16, 24, [⟨"string", true, none, 16, 24, [
        ⟨"\"", false, none, 16, 17, []⟩, ⟨"string_content", true, none, 17, 23, []⟩,
        ⟨"\"", false, none, 23, 24, []⟩]⟩]⟩]⟩]⟩, false⟩, rfl⟩

private theorem drafts_accentedQuery :
    duplicatedFlagPrefix.Drafts accentedQuery ⟨withQuery 3 accentedOption, []⟩
      (repeatedWordDraft 16 16) :=
  ⟨by decide, _, rfl, List.mem_singleton_self _⟩

/-- In double quotes every character of the content is where it is counted, and the repeated word is
reported where it starts. -/
theorem columnInLiteral_eq_accented :
    (∀ offset ≤ 6, Text.lineAndColumn accentedQuery.source.toList (16 + offset) =
        (accentedOption.line, accentedOption.columnInLiteral offset)) ∧
      duplicatedFlagPrefix.Drafts accentedQuery ⟨withQuery 3 accentedOption, []⟩
        (repeatedWordDraft 16 16) ∧
      ReportedWhere (repeatedWordDraft 16 16) accentedQuery.source.toList 16 := by
  have below : accentedQuery.formula.root.LaidOutBelow accentedQuery.source := by decide
  have inside : accentedQuery.formula.root.Contains (withQuery 3 accentedOption) :=
    .child .self (.tail _ (.head _))
  have content : accentedOption.stringContent? = some "with-x" := by decide
  have opens : accentedOption.OpensOnLine accentedQuery.source := by decide
  have only : ∀ other, (withQuery 3 accentedOption).Contains other →
      other.stringContent?.isSome = true → other = accentedOption := by
    simp [withQuery, accentedOption, openedLiteral, Node.onLine, Node.forall_contains_iff,
      Node.stringContent?]
  rcases columnInLiteral_eq_iff readFrom_accentedQuery below with ⟨placed, reported⟩
  refine ⟨?_, drafts_accentedQuery, ?_⟩
  · rcases placed _ "with-x" (inside.trans (contains_withQuery 3 _)) content opens with
      ⟨first, starts, columns⟩
    cases Int.ofNat.inj starts
    intro offset inLine
    exact (columns offset inLine).mpr rfl
  · rcases reported duplicatedFlagPrefix List.mem_cons_self accentedQuery _ _ inside
      drafts_accentedQuery with ⟨other, forContent, columns⟩
    rw [only other forContent.contained forContent.content] at columns
    rcases columns opens with ⟨first, starts, standing⟩
    cases Int.ofNat.inj starts
    exact standing.mpr rfl

def bracketedOption : Node :=
  openedLiteral 12 "%q(" "with-x" ")"

def bracketedQuery : Surroundings :=
  onLine "build.with? %q(with-x)" [withQuery 0 bracketedOption]

private theorem readFrom_bracketedQuery : bracketedQuery.formula.ReadFrom bracketedQuery.source :=
  ⟨⟨⟨"program", true, none, 0, 22, [
    ⟨"call", true, none, 0, 22, [⟨"identifier", true, some "receiver", 0, 5, []⟩,
      ⟨".", false, none, 5, 6, []⟩, ⟨"identifier", true, some "method", 6, 11, []⟩,
      ⟨"argument_list", true, some "arguments", 12, 22, [⟨"string", true, none, 12, 22, [
        ⟨"\"", false, none, 12, 15, []⟩, ⟨"string_content", true, none, 15, 21, []⟩,
        ⟨"\"", false, none, 21, 22, []⟩]⟩]⟩]⟩]⟩, false⟩, rfl⟩

private theorem drafts_bracketedQuery :
    duplicatedFlagPrefix.Drafts bracketedQuery ⟨withQuery 0 bracketedOption, []⟩
      (repeatedWordDraft 13 15) :=
  ⟨by decide, _, rfl, List.mem_singleton_self _⟩

/-- Behind an opening of three characters, the repeated word is reported two columns in front of
where it starts and its fix is put in. -/
theorem columnInLiteral_ne_bracketed :
    bracketedQuery.formula.ReadFrom bracketedQuery.source ∧
      bracketedQuery.formula.root.LaidOutBelow bracketedQuery.source ∧
      bracketedQuery.formula.root.Contains bracketedOption ∧
      bracketedOption.stringContent? = some "with-x" ∧
      bracketedOption.OpensOnLine bracketedQuery.source ∧
      bracketedOption.contentBounds.1 = 15 ∧
      Text.lineAndColumn bracketedQuery.source.toList 15 = (1, 15) ∧
      bracketedOption.columnInLiteral 0 = 13 ∧
      duplicatedFlagPrefix.Drafts bracketedQuery ⟨withQuery 0 bracketedOption, []⟩
        (repeatedWordDraft 13 15) := by
  have inside : bracketedQuery.formula.root.Contains (withQuery 0 bracketedOption) :=
    .child .self (.head _)
  exact ⟨readFrom_bracketedQuery, by decide, inside.trans (contains_withQuery 0 _), by decide,
    by decide, rfl, by decide, rfl, drafts_bracketedQuery⟩

end Rules

end FormulaLint
