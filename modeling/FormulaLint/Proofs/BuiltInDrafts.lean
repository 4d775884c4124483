import FormulaLint.Proofs.FixPlacement
import FormulaLint.Proofs.MatchBounds
import FormulaLint.Proofs.OptionQueries
import FormulaLint.Rules.BuiltIn

/-! What the built-in rules draft, rule by rule: which messages and replacements are not the rule's
own but a table's, and that fixes lie in the source of a tree that is laid out there. -/

namespace FormulaLint

/-! ## Sound drafts -/

structure Site.Placed (site : Site) (source : String) : Prop where
  laidOut : site.node.LaidOutBelow source
  ordered : site.node.InGrammarOrder

theorem Site.Placed.within_replaced {site : Site} {source text : String}
    (placed : site.Placed source) : (site.node.replacedBy text).Within source :=
  placed.laidOut.within_replacedBy .self

/-- What a rule drafts is sound if its message and its replacement are texts, or else what a table
supplies to the one rule that takes them from there, and if its fix lies in the source as soon as
the site does. -/
structure Draft.Sound (draft : Draft) (rule : Rule) (context : Surroundings) (site : Site) :
    Prop where
  message : draft.message.text?.isSome = true ∨ rule.id = Rules.deprecatedEnvMethod.id ∧
    ∃ name, context.tables.deprecatedEnvironmentMethods.get? name = some draft.message
  replacement : ∀ fix, draft.fix = some fix →
    fix.replacement.text?.isSome = true ∨ rule.id = Rules.deprecatedConstant.id ∧
      ∃ name, context.tables.deprecatedConstants.get? name = some fix.replacement
  within : site.Placed context.source →
    ∀ fix, draft.fix = some fix → fix.Within context.source

def Draft.AllSound (drafts : List Draft) (rule : Rule) (context : Surroundings) (site : Site) :
    Prop :=
  ∀ draft ∈ drafts, draft.Sound rule context site

/-- A rule is sound if all that it drafts at the sites of its kinds is. -/
def Rule.Sound (rule : Rule) : Prop :=
  ∀ (context : Surroundings) (site : Site), rule.kinds.contains site.node.kind = true →
    ∀ drafts, rule.detect context site = some drafts → Draft.AllSound drafts rule context site

section

variable {rule : Rule} {context : Surroundings} {site : Site}
variable {message : String} {line column : Int}

theorem sound_nil : Draft.AllSound [] rule context site :=
  List.forall_mem_nil _

theorem sound_draft {found : Option Fix}
    (written : ∀ fix, found = some fix → fix.replacement.text?.isSome = true)
    (within : site.Placed context.source →
      ∀ fix, found = some fix → fix.Within context.source) :
    Draft.AllSound [⟨.text message, line, column, found⟩] rule context site :=
  List.forall_mem_singleton.mpr ⟨.inl rfl, fun fix has => .inl (written fix has), within⟩

theorem sound_unfixed : Draft.AllSound [⟨.text message, line, column, none⟩] rule context site :=
  sound_draft nofun nofun

theorem sound_fixed {fix : Fix} (written : fix.replacement.text?.isSome = true)
    (within : site.Placed context.source → fix.Within context.source) :
    Draft.AllSound [⟨.text message, line, column, some fix⟩] rule context site := by
  apply sound_draft
  · intro other has
    rwa [← Option.some.inj has]
  · intro placed other has
    rw [← Option.some.inj has]
    exact within placed

end

theorem sound_convention {rule : Rule} {inspect : Surroundings → Site → List Draft}
    (detects : rule.detect = fun context site => some ((inspect context site).map (·.permit false)))
    (sound : ∀ (context : Surroundings) (site : Site),
      rule.kinds.contains site.node.kind = true →
        Draft.AllSound (inspect context site) rule context site) : rule.Sound := by
  intro context site looked drafts detected draft member
  rw [detects] at detected
  rw [← Option.some.inj detected] at member
  rcases List.mem_map.mp member with ⟨found, listed, rfl⟩
  exact ⟨(sound context site looked found listed).message, nofun, nofun⟩

theorem sound_correcting {rule : Rule} {inspect : Surroundings → Site → List Draft}
    (detects : rule.detect = fun context site => some ((inspect context site).map (·.permit true)))
    (sound : ∀ (context : Surroundings) (site : Site),
      rule.kinds.contains site.node.kind = true →
        Draft.AllSound (inspect context site) rule context site) : rule.Sound := by
  intro context site looked drafts detected draft member
  rw [detects] at detected
  rw [← Option.some.inj detected] at member
  rcases List.mem_map.mp member with ⟨found, listed, rfl⟩
  exact sound context site looked found listed

namespace Rules

/-! ## Replaced nodes and deleted statements -/

theorem isText_deletion (node : Node) (source : String) :
    (node.deletion source).replacement.text?.isSome = true := by
  rw [Node.deletion]
  split <;> rfl

theorem contains_of_dependencyName? {node dependency : Node}
    (named : dependencyName? node = some dependency) : node.Contains dependency := by
  simp only [dependencyName?, Option.bind_eq_bind, Option.pure_def,
    Option.bind_eq_some_iff] at named
  rcases named with ⟨argument, first, named⟩
  have contained := Node.contains_of_firstArgument? first
  split at named
  · exact contained.trans (Node.contains_of_child? named)
  · rwa [← Option.some.inj named]

private theorem sound_deprecatedDependency : deprecatedDependency.Sound := by
  refine sound_correcting rfl ?_
  intro context site _
  split
  · split
    · exact sound_nil
    · next dependency named =>
        split
        · exact sound_nil
        · split
          · exact sound_nil
          · exact sound_unfixed
          · exact sound_fixed rfl fun placed =>
              placed.laidOut.within_replacedBy (contains_of_dependencyName? named)
  · exact sound_nil

private theorem sound_requirementInstance : requirementInstance.Sound := by
  refine sound_correcting rfl ?_
  intro context site _
  split
  · split
    · exact sound_nil
    · next requirement named =>
        split
        · split
          · exact sound_nil
          · split
            · exact sound_fixed rfl fun placed =>
                placed.laidOut.within_replacedBy (contains_of_dependencyName? named)
            · exact sound_nil
        · exact sound_nil
  · exact sound_nil

private theorem sound_assertPredicate : assertPredicate.Sound := by
  refine sound_correcting rfl ?_
  intro context site _
  split
  · exact sound_nil
  · dsimp only
    split
    · split
      · apply sound_draft
        · intro fix has
          split at has
          · cases has
          · cases has
            rfl
        · intro placed fix has
          split at has
          · cases has
          · cases has
            exact placed.within_replaced
      · exact sound_nil
    · exact sound_nil

private theorem sound_negatedQuery : negatedQuery.Sound := by
  refine sound_correcting rfl ?_
  intro context site _
  split
  · exact sound_nil
  · split
    · exact sound_fixed rfl Site.Placed.within_replaced
    · exact sound_nil

private theorem sound_includeQuery : includeQuery.Sound := by
  refine sound_correcting rfl ?_
  intro context site _
  split
  · split
    · exact sound_nil
    · split
      · exact sound_nil
      · exact sound_fixed rfl Site.Placed.within_replaced
  · exact sound_nil

private theorem sound_nonGlobDir : nonGlobDir.Sound := by
  refine sound_correcting rfl ?_
  intro context site _
  split
  · split
    · split
      · exact sound_nil
      · split
        · exact sound_nil
        · exact sound_fixed rfl Site.Placed.within_replaced
    · exact sound_nil
  · exact sound_nil

private theorem sound_manPathConcatenation : manPathConcatenation.Sound := by
  refine sound_correcting rfl ?_
  intro context site _
  split
  · exact sound_nil
  · split
    · exact sound_nil
    · split
      · exact sound_fixed rfl Site.Placed.within_replaced
      · exact sound_nil

private theorem sound_argvHeadFlag : argvHeadFlag.Sound := by
  refine sound_correcting rfl ?_
  intro context site _
  split
  · exact sound_nil
  · split
    · exact sound_nil
    · split
      · exact sound_nil
      · split
        · exact sound_nil
        · exact sound_fixed rfl Site.Placed.within_replaced

private theorem sound_versionHeadComparison : versionHeadComparison.Sound := by
  refine sound_correcting rfl ?_
  intro context site _
  split
  · split
    · split
      · exact sound_fixed rfl Site.Placed.within_replaced
      · exact sound_nil
    · exact sound_nil
  · exact sound_nil

theorem sound_deprecatedConstant : deprecatedConstant.Sound := by
  refine sound_correcting rfl ?_
  intro context site _
  dsimp only
  split
  · split
    · exact sound_nil
    · next phrase found =>
        refine List.forall_mem_singleton.mpr ⟨.inl rfl, ?_, ?_⟩
        · intro fix has
          cases has
          exact .inr ⟨rfl, site.node.text, found⟩
        · intro placed fix has
          cases has
          have replaced : (site.node.replacedBy "").Within context.source :=
            placed.within_replaced
          exact ⟨replaced.front, replaced.ordered, replaced.back⟩
  · exact sound_nil

private theorem sound_conditionalDependency : conditionalDependency.Sound := by
  refine sound_correcting rfl ?_
  intro context site _
  split
  · split
    · dsimp only
      split
      · exact sound_nil
      · exact sound_fixed rfl Site.Placed.within_replaced
    · exact sound_nil
  · exact sound_nil

private theorem sound_zeroRebuild : zeroRebuild.Sound := by
  refine sound_correcting rfl ?_
  intro context site _
  split
  · split
    · exact sound_nil
    · split
      · exact sound_fixed (isText_deletion _ _) fun placed => placed.laidOut.within_deletion
      · exact sound_nil
  · exact sound_nil

private theorem sound_llvmFailure : llvmFailure.Sound := by
  refine sound_correcting rfl ?_
  intro context site _
  split
  · exact sound_fixed (isText_deletion _ _) fun placed => placed.laidOut.within_deletion
  · exact sound_nil

/-! ## Stretches between nodes -/

private theorem sound_inheritanceSpacing : inheritanceSpacing.Sound := by
  refine sound_correcting rfl ?_
  intro context site looked
  have declares := List.contains_iff_mem.mp looked
  split
  · next name superclass nameFills superclassFills =>
      split
      · exact sound_nil
      · next parent rest parents =>
          dsimp only
          split
          · exact sound_nil
          · refine sound_fixed rfl fun placed => ?_
            have listed := placed.ordered.declaration (List.mem_singleton.mp declares) name
              nameFills superclass superclassFills
            have apart := placed.laidOut.self.stop_le_start listed
            have superclassContained := Node.contains_of_child? superclassFills
            have superclassBounds := placed.laidOut.bounds superclassContained
            have parentBounds := (placed.laidOut.of_contains superclassContained).bounds
              (Node.contains_of_mem_namedChildren (parents ▸ List.mem_cons_self))
            exact placed.laidOut.within_write (by omega) (by omega)
  · exact sound_nil

private theorem sound_unlessQuery : unlessQuery.Sound := by
  refine sound_correcting rfl ?_
  intro context site _
  split
  · next labelled =>
      split
      · next condition keyword fills first =>
          split
          · refine sound_fixed rfl fun placed => ?_
            have listed := placed.ordered.conditional (by simpa using labelled) keyword first
              condition fills
            have apart := placed.laidOut.self.stop_le_start listed
            have keywordBounds := placed.laidOut.bounds
              (.child .self (List.mem_of_find?_eq_some first))
            have conditionBounds := placed.laidOut.bounds (Node.contains_of_child? fills)
            exact placed.laidOut.within_write (by omega) conditionBounds.2.2
          · exact sound_nil
      · exact sound_nil
  · exact sound_nil

private theorem sound_fileUtilsNamespace : fileUtilsNamespace.Sound := by
  refine sound_correcting rfl ?_
  intro context site _
  split
  · next called =>
      split
      · next receiver method has fills =>
          simp only [Node.calls, Node.callsOn, Bool.and_eq_true, decide_eq_true_eq] at called
          refine sound_fixed rfl fun placed => ?_
          have listed := placed.ordered.call called.1.1 receiver has method fills
          have apart := placed.laidOut.self.stop_le_start listed
          have receiverBounds := placed.laidOut.bounds (Node.contains_of_child? has)
          have methodBounds := placed.laidOut.bounds (Node.contains_of_child? fills)
          exact placed.laidOut.within_write (by omega) (by omega)
      · exact sound_nil
  · exact sound_nil

private theorem sound_legacyTestMethod : legacyTestMethod.Sound := by
  refine sound_correcting rfl ?_
  intro context site _
  split
  · split
    · exact sound_nil
    · next name fills =>
        split
        · apply sound_draft
          · intro fix has
            split at has
            · cases has
              rfl
            · cases has
          · intro placed fix has
            split at has
            · have bounds := placed.laidOut.bounds (Node.contains_of_child? fills)
              cases has
              exact placed.laidOut.within_write (by omega) bounds.2.2
            · cases has
        · exact sound_nil
  · exact sound_nil

/-! ## Contents of literals -/

theorem repeated?_nil (word : String) : Flag.repeated? word [] = none := by
  have none : Flag.afterWord? word [] = none := by
    rw [Flag.afterWord?]
    cases word.toList <;> rfl
  rw [Flag.repeated?, Flag.dropDashes, none]
  · rfl
  · nofun
  · nofun

private theorem sound_duplicatedFlagPrefix : duplicatedFlagPrefix.Sound := by
  refine sound_correcting rfl ?_
  intro context site _
  split
  · split
    · next option value query found asked =>
        rcases contains_of_literalArgument? found with ⟨contained, content⟩
        dsimp only
        split
        · next first others repeated =>
            have some : value ≠ "" := by
              rintro rfl
              rw [String.toList_empty, repeated?_nil] at repeated
              cases repeated
            exact sound_fixed rfl fun placed =>
              (placed.laidOut.of_contains contained).within_content content some
        · exact sound_nil
    · exact sound_nil
  · exact sound_nil

private theorem sound_dashedFlag : dashedFlag.Sound := by
  refine sound_correcting rfl ?_
  intro context site _
  split
  · split
    · exact sound_nil
    · next option value found =>
        rcases contains_of_literalArgument? found with ⟨contained, content⟩
        split
        · exact sound_nil
        · next rest dashed =>
            have some : value ≠ "" := by
              rintro rfl
              cases dashed
            exact sound_fixed rfl fun placed =>
              (placed.laidOut.of_contains contained).within_content content some
  · exact sound_nil

theorem contains_of_commandRun? {node command : Node} {value : String}
    (run : commandRun? node = some (command, value)) :
    node.Contains command ∧ command.stringContent? = some value := by
  rw [commandRun?] at run
  split at run
  · simp only [Option.bind_eq_bind, Option.pure_def, Option.bind_eq_some_iff,
      Option.some.injEq, Prod.mk.injEq] at run
    rcases run with ⟨argument, first, content, contentEq, rfl, rfl⟩
    exact ⟨Node.contains_of_firstArgument? first, contentEq⟩
  · cases run

theorem contains_of_commandLiteral? {node literal : Node}
    (found : commandLiteral? node = some literal) : node.Contains literal := by
  rw [commandLiteral?] at found
  split at found
  · rcases Option.bind_eq_some_iff.mp found with ⟨target, -, chosen⟩
    split at chosen
    · rcases Option.bind_eq_some_iff.mp chosen with ⟨environment, -, right⟩
      simp only at right
      split at right
      · exact Node.contains_of_child? right
      · cases right
    · cases chosen
  · rcases Option.map_eq_some_iff.mp found with ⟨⟨command, value⟩, run, rfl⟩
    exact (contains_of_commandRun? run).1

theorem length_le_of_stripFront {front chars rest : List Char}
    (found : Text.stripFront front chars = some rest) :
    chars.length = front.length + rest.length := by
  rw [Text.eq_append_of_stripFront found, List.length_append]

private theorem length_le_of_leadingName? {names : List String} {chars : List Char} {name : String}
    (leads : leadingName? names chars = some name) : name.length ≤ chars.length := by
  have passed := List.find?_some leads
  cases stripped : Text.stripFront name.toList chars with
  | none =>
      rw [stripped] at passed
      cases passed
  | some rest =>
      have length := length_le_of_stripFront stripped
      rw [String.length_toList] at length
      omega

theorem length_le_of_compilerIn? {names : List String} {command : List Char} {name : String}
    {length : Nat} (found : compilerIn? names command = some (name, length)) :
    length ≤ command.length := by
  simp only [compilerIn?, Option.bind_eq_bind, Option.pure_def] at found
  split at found
  · next inDirectory =>
      rw [Option.some.inj found] at inDirectory
      simp only [Option.bind_eq_some_iff, Option.some.injEq, Prod.mk.injEq] at inDirectory
      rcases inDirectory with ⟨rest, stripped, other, leads, rfl, rfl⟩
      have front := length_le_of_stripFront stripped
      have back := length_le_of_leadingName? leads
      rw [String.length_toList] at front
      omega
  · rcases Option.map_eq_some_iff.mp found with ⟨other, leads, equal⟩
    cases equal
    exact length_le_of_leadingName? leads

private theorem length_le_of_compilerHelper? {compilers : Dictionary (List String)}
    {command : List Char} {helper name : String} {length : Nat}
    (found : compilerHelper? compilers command = some (helper, name, length)) :
    length ≤ command.length := by
  rcases List.exists_of_findSome?_eq_some found with ⟨entry, -, chosen⟩
  rcases Option.map_eq_some_iff.mp chosen with ⟨other, inEntry, equal⟩
  cases equal
  exact length_le_of_compilerIn? inEntry

private theorem text_ne_empty_of_opensWithDoubleQuote {node : Node}
    (opens : node.opensWithDoubleQuote = true) : node.text ≠ "" := by
  intro empty
  rw [Node.opensWithDoubleQuote, empty, Bool.and_eq_true] at opens
  cases opens.2

private theorem sound_hardcodedCompiler : hardcodedCompiler.Sound := by
  refine sound_correcting rfl ?_
  intro context site _
  split
  · exact sound_nil
  · next literal found =>
      split
      · exact sound_nil
      · next helper name length chosen =>
          rcases Option.bind_eq_some_iff.mp chosen with ⟨value, content, spelled⟩
          have fits := length_le_of_compilerHelper? spelled
          have contained := contains_of_commandLiteral? found
          apply sound_draft
          · intro fix has
            split at has
            · cases has
              rfl
            · cases has
          · intro placed fix has
            split at has
            · next opens =>
                have below := placed.laidOut.of_contains contained
                have written := text_ne_empty_of_opensWithDoubleQuote opens
                rcases below.content_front content written with ⟨start, startEq, back⟩
                rw [String.length_toList] at fits
                rw [← Option.some.inj has, startEq]
                exact below.within_write (Nat.le_add_right start length) (by omega)
            · cases has

/-! ## Matches in literals -/

theorem sublist_of_mem_zip_tail {α : Type} {values : List α} {left right : α}
    (neighbours : (left, right) ∈ values.zip values.tail) : [left, right].Sublist values := by
  induction values with
  | nil => cases neighbours
  | cons head rest induction =>
      cases rest with
      | nil => cases neighbours
      | cons second others =>
          rcases List.mem_cons.mp neighbours with first | later
          · cases first
            exact (List.singleton_sublist.mpr List.mem_cons_self).cons_cons _
          · exact (induction later).cons _

def firstMatch? (patterns : List Pattern) (text : String) : Option (Pattern × Pattern.Match) :=
  patterns.findSome? fun pattern => (pattern.search text).map fun found => (pattern, found)

theorem search_of_firstMatch? {patterns : List Pattern} {text : String} {pattern : Pattern}
    {found : Pattern.Match} (matched : firstMatch? patterns text = some (pattern, found)) :
    pattern ∈ patterns ∧ pattern.search text = some found := by
  rcases List.exists_of_findSome?_eq_some matched with ⟨tried, listed, chosen⟩
  rcases Option.map_eq_some_iff.mp chosen with ⟨other, searched, equal⟩
  cases equal
  exact ⟨listed, searched⟩

def namedShortcut (pattern : Pattern) (found : Pattern.Match) : String :=
  (pattern.named found "shortcut").getD "None"

def shortcutDraft (part fragment : Node) (helper : String) (pattern : Pattern)
    (found : Pattern.Match) : Draft :=
  fragment.reportAt (fragment.columnInLiteral found.start)
    ("\"#\x7b" ++ helper ++ "\x7d" ++ Text.slice fragment.text found.start found.stop ++
      "\" should be \"#\x7b" ++ namedShortcut pattern found ++ "\x7d\"")
    (some (.write part.start (fragment.start + found.stop)
      ("#\x7b" ++ namedShortcut pattern found ++ "\x7d")))

theorem shortcutDraft?_eq_some_iff {shortcuts : Dictionary (List Pattern)} {part fragment : Node}
    {draft : Draft} : shortcutDraft? shortcuts part fragment = some draft ↔
      fragment.label = "string_content" ∧ ∃ helper patterns pattern found,
        interpolatedHelper? shortcuts part = some (helper, patterns) ∧
          firstMatch? patterns fragment.text = some (pattern, found) ∧
            draft = shortcutDraft part fragment helper pattern found := by
  simp only [shortcutDraft?, Option.bind_eq_bind, Option.pure_def]
  constructor
  · intro drafted
    rcases Option.bind_eq_some_iff.mp drafted with ⟨⟨helper, patterns⟩, helps, drafted⟩
    simp only at drafted
    split at drafted
    · cases drafted
    · next label =>
        rcases Option.bind_eq_some_iff.mp drafted with ⟨⟨pattern, found⟩, matched, made⟩
        exact ⟨not_not.mp label, helper, patterns, pattern, found, helps, matched,
          (Option.some.inj made).symm⟩
  · rintro ⟨label, helper, patterns, pattern, found, helps, matched, rfl⟩
    rw [firstMatch?] at matched
    rw [helps, Option.bind_some]
    simp only
    rw [if_neg (not_not.mpr label), matched, Option.bind_some]
    rfl

private theorem sound_shortcutDraft? {rule : Rule} {context : Surroundings} {site : Site}
    {part fragment : Node} {shortcuts : Dictionary (List Pattern)} {draft : Draft}
    (listed : [part, fragment].Sublist site.node.children)
    (drafted : shortcutDraft? shortcuts part fragment = some draft) :
    draft.Sound rule context site := by
  rcases shortcutDraft?_eq_some_iff.mp drafted with
    ⟨-, helper, patterns, pattern, found, -, matched, rfl⟩
  refine sound_fixed rfl (fun placed => ?_) _ (List.mem_singleton_self _)
  have partContained := Node.Contains.child .self (listed.subset List.mem_cons_self)
  have fragmentContained := Node.Contains.child .self
    (listed.subset (List.mem_cons_of_mem part List.mem_cons_self))
  have partBounds := placed.laidOut.bounds partContained
  have fragmentBounds := placed.laidOut.bounds fragmentContained
  have apart := placed.laidOut.self.stop_le_start listed
  have stops := (Pattern.Expression.bounds_of_search (search_of_firstMatch? matched).2).2
  rw [(placed.laidOut fragment fragmentContained).length_text] at stops
  exact placed.laidOut.within_write (by omega) (by omega)

private theorem sound_pathShortcut : pathShortcut.Sound := by
  refine sound_correcting rfl ?_
  intro context site _
  split
  · intro draft member
    rcases List.exists_of_findSome?_eq_some (Option.mem_toList.mp member) with
      ⟨pair, neighbours, drafted⟩
    exact sound_shortcutDraft? (sublist_of_mem_zip_tail neighbours) drafted
  · exact sound_nil

/-! ## Conventions -/

private theorem sound_templateComment : templateComment.Sound := by
  refine sound_convention rfl ?_
  intro context site _
  dsimp only
  split
  · exact sound_unfixed
  · exact sound_nil

private theorem sound_commentedDependency : commentedDependency.Sound := by
  refine sound_convention rfl ?_
  intro context site _
  split
  · exact sound_nil
  · exact sound_unfixed

private theorem sound_assertInclude : assertInclude.Sound := by
  refine sound_convention rfl ?_
  intro context site _
  split
  · exact sound_nil
  · split
    · exact sound_unfixed
    · exact sound_nil

private theorem sound_legacyOptionsMethod : legacyOptionsMethod.Sound := by
  refine sound_convention rfl ?_
  intro context site _
  dsimp only
  split
  · exact sound_unfixed
  · exact sound_nil

private theorem sound_topLevelMethod : topLevelMethod.Sound := by
  refine sound_convention rfl ?_
  intro context site _
  split
  · exact sound_unfixed
  · exact sound_nil

private theorem sound_inreplaceBlockVariable : inreplaceBlockVariable.Sound := by
  refine sound_convention rfl ?_
  intro context site _
  split
  · split
    · split
      · exact sound_nil
      · exact sound_unfixed
    · exact sound_nil
  · exact sound_nil

private theorem sound_linuxCheck : linuxCheck.Sound := by
  refine sound_convention rfl ?_
  intro context site _
  split
  · exact sound_unfixed
  · exact sound_nil

private theorem sound_skipCleanAll : skipCleanAll.Sound := by
  refine sound_convention rfl ?_
  intro context site _
  split
  · exact sound_unfixed
  · exact sound_nil

private theorem sound_universalBinary : universalBinary.Sound := by
  refine sound_convention rfl ?_
  intro context site _
  split
  · split
    · exact sound_unfixed
    · exact sound_nil
  · exact sound_nil

theorem sound_deprecatedEnvMethod : deprecatedEnvMethod.Sound := by
  refine sound_convention rfl ?_
  intro context site _
  split
  · split
    · exact sound_nil
    · next phrase found =>
        rcases Option.bind_eq_some_iff.mp found with ⟨name, -, has⟩
        exact List.forall_mem_singleton.mpr ⟨.inr ⟨rfl, name, has⟩, nofun, nofun⟩
  · exact sound_nil

private theorem sound_installNameTool : installNameTool.Sound := by
  refine sound_convention rfl ?_
  intro context site _
  split
  · exact sound_unfixed
  · exact sound_nil

private theorem sound_npmInstallArgs : npmInstallArgs.Sound := by
  refine sound_convention rfl ?_
  intro context site _
  split
  · split
    · exact sound_unfixed
    · exact sound_nil
  · exact sound_nil

private theorem sound_legacyMacOSCheck : legacyMacOSCheck.Sound := by
  refine sound_convention rfl ?_
  intro context site _
  split
  · exact sound_unfixed
  · exact sound_nil

private theorem sound_systemFileUtils : systemFileUtils.Sound := by
  refine sound_convention rfl ?_
  intro context site _
  split
  · exact sound_nil
  · dsimp only
    split
    · exact sound_unfixed
    · exact sound_nil

private theorem sound_argvOptions : argvOptions.Sound := by
  refine sound_convention rfl ?_
  intro context site _
  split
  · exact sound_nil
  · exact sound_unfixed

private theorem sound_shellEnvironment : shellEnvironment.Sound := by
  refine sound_convention rfl ?_
  intro context site _
  split
  · exact sound_nil
  · split
    · exact sound_nil
    · exact sound_unfixed

private theorem sound_vendoredDependency : vendoredDependency.Sound := by
  refine sound_convention rfl ?_
  intro context site _
  dsimp only
  split
  · exact sound_nil
  · split
    · exact sound_nil
    · intro draft member
      rcases List.exists_of_findSome?_eq_some (Option.mem_toList.mp member) with
        ⟨option, -, drafted⟩
      rcases Option.bind_eq_some_iff.mp drafted with ⟨name, -, drafted⟩
      rcases Option.bind_eq_some_iff.mp drafted with ⟨found, -, made⟩
      rw [← Option.some.inj made]
      exact sound_unfixed _ (List.mem_singleton_self _)

private theorem sound_dependencyOption : dependencyOption.Sound := by
  refine sound_convention rfl ?_
  intro context site _
  split
  · exact sound_nil
  · split
    · split
      · exact sound_nil
      · intro draft member
        rcases List.mem_filterMap.mp member with ⟨option, -, drafted⟩
        rcases Option.bind_eq_some_iff.mp drafted with ⟨tag, -, drafted⟩
        split at drafted
        · cases drafted
        · rw [← Option.some.inj drafted]
          exact sound_unfixed _ (List.mem_singleton_self _)
    · exact sound_nil

/-! ## All built-in rules -/

theorem sound_of_builtIn : ∀ rule ∈ builtIn, rule.Sound := by
  simp only [builtIn, List.forall_mem_cons]
  exact ⟨sound_deprecatedDependency, sound_inheritanceSpacing, sound_templateComment,
    sound_commentedDependency, sound_assertInclude, sound_assertPredicate, sound_unlessQuery,
    sound_negatedQuery, sound_duplicatedFlagPrefix, sound_includeQuery, sound_dashedFlag,
    sound_legacyOptionsMethod, sound_fileUtilsNamespace, sound_inreplaceBlockVariable,
    sound_zeroRebuild, sound_linuxCheck, sound_llvmFailure, sound_legacyTestMethod,
    sound_topLevelMethod, sound_skipCleanAll, sound_universalBinary, sound_deprecatedEnvMethod,
    sound_installNameTool, sound_npmInstallArgs, sound_requirementInstance,
    sound_legacyMacOSCheck, sound_nonGlobDir, sound_systemFileUtils, sound_argvOptions,
    sound_argvHeadFlag, sound_manPathConcatenation, sound_hardcodedCompiler, sound_pathShortcut,
    sound_vendoredDependency, sound_shellEnvironment, sound_dependencyOption,
    sound_versionHeadComparison, sound_deprecatedConstant, sound_conditionalDependency,
    List.forall_mem_nil _⟩

end Rules

/-! ## Reports -/

namespace Audit

section

variable {audit : Audit} {formula : Formula} {provenance : Provenance} {offense : Offense}

/-- An offense is what some rule, not left out, drafts at a site of its kinds that the walk meets.
-/
theorem exists_detected (reported : offense ∈ (audit.run formula provenance).1.offenses) :
    ∃ rule ∈ audit.catalogue.rules, audit.leavesOut provenance rule = false ∧
      ∃ site ∈ formula.walk, rule.kinds.contains site.node.kind = true ∧
        ∃ drafts, rule.detect (audit.surroundings formula provenance) site = some drafts ∧
          ∃ draft ∈ drafts, Audit.offense formula rule draft = offense := by
  rcases (audit.mem_offenses_run_iff formula provenance).mp reported with
    ⟨rule, member, draft, drafted, equal⟩
  rw [ruleDrafts] at drafted
  split at drafted
  · cases drafted
  · next included =>
      simp only [Bool.or_eq_true, not_or, Bool.not_eq_true] at included
      rcases List.mem_flatMap.mp drafted with ⟨site, looked, found⟩
      rcases List.mem_filter.mp looked with ⟨met, kinds⟩
      rw [← Node.walk_eq_preorder] at met
      cases detected : rule.detect (audit.surroundings formula provenance) site with
      | none =>
          rw [detected] at found
          cases found
      | some drafts =>
          rw [detected] at found
          exact ⟨rule, member, included.1, site, met, kinds, drafts, detected, draft, found, equal⟩

theorem mem_offenses_of_detected {rule : Rule} (member : rule ∈ audit.catalogue.rules)
    (steady : ∀ context site, (rule.detect context site).isSome = true)
    (included : audit.leavesOut provenance rule = false) {site : Site} (met : site ∈ formula.walk)
    (kinds : rule.kinds.contains site.node.kind = true) {drafts : List Draft}
    (detected : rule.detect (audit.surroundings formula provenance) site = some drafts)
    {draft : Draft} (drafted : draft ∈ drafts) :
    Audit.offense formula rule draft ∈ (audit.run formula provenance).1.offenses := by
  refine (audit.mem_offenses_run_iff formula provenance).mpr ⟨rule, member, draft, ?_, rfl⟩
  have succeeds : audit.ruleFails formula provenance rule = false := by
    refine List.any_eq_false.mpr fun other _ fails => ?_
    have some := steady (audit.surroundings formula provenance) other
    rw [Option.isNone_iff_eq_none.mp fails] at some
    cases some
  rw [ruleDrafts, included, succeeds, Bool.or_false, if_neg Bool.false_ne_true]
  rw [Formula.walk, Node.walk_eq_preorder] at met
  refine List.mem_flatMap.mpr ⟨site, List.mem_filter.mpr ⟨met, kinds⟩, ?_⟩
  rwa [detected]

theorem exists_sound_draft (builtIn : ∀ rule ∈ audit.catalogue.rules, rule ∈ Rules.builtIn)
    (reported : offense ∈ (audit.run formula provenance).1.offenses) :
    ∃ rule : Rule, audit.leavesOut provenance rule = false ∧
      ∃ site ∈ formula.walk, ∃ draft : Draft,
        draft.Sound rule (audit.surroundings formula provenance) site ∧
          offense.message = draft.message ∧ offense.fix = draft.fix := by
  rcases exists_detected reported with
    ⟨rule, member, included, site, met, kinds, drafts, detected, draft, found, rfl⟩
  have sound := Rules.sound_of_builtIn rule (builtIn rule member) _ site kinds drafts detected
  exact ⟨rule, included, site, met, draft, sound draft found, rfl, rfl⟩

end

end Audit

end FormulaLint
