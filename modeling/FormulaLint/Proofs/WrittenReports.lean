import FormulaLint.Proofs.BuiltInDrafts
import FormulaLint.Proofs.Exemptions
import FormulaLint.Proofs.PhraseTables
import FormulaLint.Proofs.SettledOffenses

/-! Which configurations let a report be written out and its plan be applied. A list that a table
supplies becomes a message or a replacement as it stands, and no list can be put into a text. -/

namespace FormulaLint

/-! ## Plans of texts -/

namespace Correction

variable {offenses : List Offense}

theorem exists_mem_fixes {offense : Offense} {fix : Fix} (member : offense ∈ offenses)
    (has : offense.fix = some fix) : ∃ accepted, accepted ∈ (ofOffenses offenses).fixes := by
  rcases List.mem_iff_getElem?.mp member with ⟨position, stands⟩
  have greedy := Candidate.greedySelection_accepted offenses
  by_cases taken : (⟨position, offense, fix⟩ : Candidate) ∈ accepted offenses
  · exact ⟨fix, List.mem_map_of_mem taken⟩
  · rcases greedy.complete ⟨position, offense, fix⟩ ⟨stands, has⟩ taken with ⟨earlier, inPlan, -⟩
    exact ⟨earlier.fix, List.mem_map_of_mem inPlan⟩

end Correction

/-! ## What a configuration lets be written -/

namespace Configuration

def builtInAudit (configuration : Configuration) : Audit :=
  ⟨.builtIn, configuration⟩

def MessagesAreTexts (configuration : Configuration) : Prop :=
  ∀ (formula : Formula) (provenance : Provenance),
    ∀ offense ∈ (configuration.builtInAudit.run formula provenance).1.offenses,
      offense.message.text?.isSome = true

def ReplacementsAreTexts (configuration : Configuration) : Prop :=
  ∀ (formula : Formula) (provenance : Provenance),
    ∀ offense ∈ (configuration.builtInAudit.run formula provenance).1.offenses,
      ∀ fix, offense.fix = some fix → fix.replacement.text?.isSome = true

def PlansApply (configuration : Configuration) : Prop :=
  ∀ (formula : Formula) (provenance : Provenance),
    let report := (configuration.builtInAudit.run formula provenance).1
    ((Correction.ofOffenses report.offenses).splice? formula.source).isSome = true

def NeverRuns (configuration : Configuration) (rule : Rule) : Prop :=
  ∀ provenance : Provenance, configuration.policy.exempts rule.id provenance = true

variable {configuration : Configuration}

theorem not_neverRuns {rule : Rule} {provenance : Provenance}
    (included : configuration.policy.exempts rule.id provenance = false) :
    ¬configuration.NeverRuns rule := by
  intro never
  rw [never provenance] at included
  cases included

private theorem messagesAreTexts_of_allTexts
    (texts : configuration.tables.deprecatedEnvironmentMethods.AllTexts ∨
      configuration.NeverRuns Rules.deprecatedEnvMethod) : configuration.MessagesAreTexts := by
  intro formula provenance offense reported
  rcases Audit.exists_sound_draft (fun rule member => member) reported with
    ⟨rule, included, site, -, draft, sound, message, -⟩
  rw [message]
  rcases sound.message with written | ⟨same, name, found⟩
  · exact written
  · rcases texts with all | never
    · exact all name draft.message found
    · rw [Audit.leavesOut, same] at included
      exact absurd never (not_neverRuns included)

theorem replacementsAreTexts_of_allTexts
    (texts : configuration.tables.deprecatedConstants.AllTexts ∨
      configuration.NeverRuns Rules.deprecatedConstant) : configuration.ReplacementsAreTexts := by
  intro formula provenance offense reported fix has
  rcases Audit.exists_sound_draft (fun rule member => member) reported with
    ⟨rule, included, site, -, draft, sound, -, fixEq⟩
  rcases sound.replacement fix (fixEq.symm.trans has) with written | ⟨same, name, found⟩
  · exact written
  · rcases texts with all | never
    · exact all name fix.replacement found
    · rw [Audit.leavesOut, same] at included
      exact absurd never (not_neverRuns included)

theorem plansApply_of_replacementsAreTexts (texts : configuration.ReplacementsAreTexts) :
    configuration.PlansApply := by
  intro formula provenance
  dsimp only
  rw [Correction.isSome_splice?, List.all_eq_true]
  intro fix member
  rcases Correction.exists_offense_of_mem_fixes member with ⟨offense, reported, has⟩
  exact texts formula provenance offense reported fix has

/-! ## Formulas that show what a table supplies -/

def environmentCall (name : String) : Node :=
  ⟨"call", true, none, ⟨1, 0, 1, 4 + name.length, 0, 4 + name.length⟩, "ENV." ++ name, [
    ⟨"constant", true, some "receiver", ⟨1, 0, 1, 3, 0, 3⟩, "ENV", []⟩,
    ⟨".", false, none, ⟨1, 3, 1, 4, 3, 4⟩, ".", []⟩,
    ⟨"identifier", true, some "method",
      ⟨1, 4, 1, 4 + name.length, 4, 4 + name.length⟩, name, []⟩]⟩

def constantNamed (name : String) : Node :=
  ⟨"constant", true, none, ⟨1, 0, 1, name.length, 0, name.length⟩, name, []⟩

def formulaOf (statement : Node) : Formula where
  source := statement.text
  root := ⟨"program", true, none, statement.extent, statement.text, [statement]⟩
  hasError := false

theorem mem_walk_formulaOf {statement : Node} (named : statement.named = true) :
    ⟨statement, [(formulaOf statement).root]⟩ ∈ (formulaOf statement).walk :=
  Node.mem_walk_of_named (root_mem_walk _) (List.mem_singleton_self statement) named

private theorem mem_offenses_environmentCall {provenance : Provenance} {name : String}
    {phrase : Phrase}
    (found : configuration.tables.deprecatedEnvironmentMethods.get? name = some phrase)
    (included : configuration.policy.exempts Rules.deprecatedEnvMethod.id provenance = false) :
    ∃ offense ∈ (configuration.builtInAudit.run (formulaOf (environmentCall name))
      provenance).1.offenses, offense.message = phrase := by
  have detected : Rules.deprecatedEnvMethod.detect
      (configuration.builtInAudit.surroundings (formulaOf (environmentCall name)) provenance)
      ⟨environmentCall name, [(formulaOf (environmentCall name)).root]⟩ =
        some [⟨phrase, 1, 0, none⟩] := by
    have called : (environmentCall name).callsOn (.written "ENV") = true := rfl
    have asked : (environmentCall name).method?.bind
        configuration.tables.deprecatedEnvironmentMethods.get? = some phrase := found
    simp only [Rules.deprecatedEnvMethod, Rule.convention, Audit.surroundings, builtInAudit, called,
      asked, if_true]
    rfl
  have listed : Rules.deprecatedEnvMethod ∈ configuration.builtInAudit.catalogue.rules :=
    List.mem_of_getElem? (i := 21) rfl
  have leavesIn : configuration.builtInAudit.leavesOut provenance Rules.deprecatedEnvMethod =
      false := included
  have reported := Audit.mem_offenses_of_detected listed (fun _ _ => rfl) leavesIn
    (mem_walk_formulaOf rfl) rfl detected (List.mem_singleton_self _)
  exact ⟨_, reported, rfl⟩

def statementSite (statement : Node) : Site :=
  ⟨statement, [(formulaOf statement).root]⟩

theorem detect_constantNamed {provenance : Provenance} {name : String} {phrase : Phrase}
    (found : configuration.tables.deprecatedConstants.get? name = some phrase) :
    Rules.deprecatedConstant.detect
      (configuration.builtInAudit.surroundings (formulaOf (constantNamed name)) provenance)
      (statementSite (constantNamed name)) =
        some [⟨.text ("Use " ++ phrase.display ++ " instead of " ++ name), 1, 0,
          some ⟨0, name.length, phrase⟩⟩] := by
  have known : configuration.tables.deprecatedConstants.get? (constantNamed name).text =
      some phrase := found
  have labelled : (decide ((constantNamed name).label = "constant")) = true := rfl
  simp only [Rules.deprecatedConstant, Rule.correcting, Audit.surroundings, builtInAudit, known,
    statementSite, labelled]
  rfl

theorem mem_offenses_constantNamed {provenance : Provenance} {name : String} {phrase : Phrase}
    (found : configuration.tables.deprecatedConstants.get? name = some phrase)
    (included : configuration.policy.exempts Rules.deprecatedConstant.id provenance = false) :
    ∃ offense ∈ (configuration.builtInAudit.run (formulaOf (constantNamed name))
      provenance).1.offenses, offense.fix = some ⟨0, name.length, phrase⟩ := by
  have listed : Rules.deprecatedConstant ∈ configuration.builtInAudit.catalogue.rules :=
    List.mem_of_getElem? (i := 37) rfl
  have leavesIn : configuration.builtInAudit.leavesOut provenance Rules.deprecatedConstant =
      false := included
  have reported := Audit.mem_offenses_of_detected listed (fun _ _ => rfl) leavesIn
    (mem_walk_formulaOf rfl) rfl (detect_constantNamed found) (List.mem_singleton_self _)
  exact ⟨_, reported, rfl⟩

theorem replacement_of_constantNamed {provenance : Provenance} {name : String} {phrase : Phrase}
    (found : configuration.tables.deprecatedConstants.get? name = some phrase) :
    ∀ offense ∈ (configuration.builtInAudit.run (formulaOf (constantNamed name))
      provenance).1.offenses, ∀ fix, offense.fix = some fix → fix.replacement = phrase := by
  intro offense reported fix has
  rcases Audit.exists_detected reported with
    ⟨rule, member, -, site, met, kinds, drafts, detected, draft, drafted, rfl⟩
  have walked : (formulaOf (constantNamed name)).walk =
      [.ofRoot (formulaOf (constantNamed name)).root, statementSite (constantNamed name)] := by
    rw [Formula.walk, Node.walk_eq_preorder]
    rfl
  have ofProgram : Rules.builtIn.filter (·.kinds.contains .program) = [] := rfl
  have ofConstants : Rules.builtIn.filter (·.kinds.contains .constantReference) =
      [Rules.deprecatedConstant] := rfl
  rw [walked] at met
  rcases List.mem_cons.mp met with rfl | later
  · have listed : rule ∈ Rules.builtIn.filter (·.kinds.contains .program) :=
      List.mem_filter.mpr ⟨member, kinds⟩
    rw [ofProgram] at listed
    cases listed
  · cases List.mem_singleton.mp later
    have listed : rule ∈ Rules.builtIn.filter (·.kinds.contains .constantReference) :=
      List.mem_filter.mpr ⟨member, kinds⟩
    rw [ofConstants] at listed
    cases List.mem_singleton.mp listed
    cases (detect_constantNamed found).symm.trans detected
    cases List.mem_singleton.mp drafted
    cases has
    rfl

/-! ## The condition -/

theorem exists_not_isText {dictionary : Dictionary Phrase} (mixed : ¬dictionary.AllTexts) :
    ∃ name phrase, dictionary.get? name = some phrase ∧ phrase.text?.isSome = false := by
  simp only [Dictionary.AllTexts, not_forall, Bool.not_eq_true] at mixed
  rcases mixed with ⟨name, phrase, found, list⟩
  exact ⟨name, phrase, found, list⟩

theorem exists_included {rule : Rule} (runs : ¬configuration.NeverRuns rule) :
    ∃ provenance : Provenance, configuration.policy.exempts rule.id provenance = false := by
  simpa only [NeverRuns, not_forall, Bool.not_eq_true] using runs

theorem messagesAreTexts_iff : configuration.MessagesAreTexts ↔
    configuration.tables.deprecatedEnvironmentMethods.AllTexts ∨
      configuration.NeverRuns Rules.deprecatedEnvMethod := by
  refine ⟨fun texts => ?_, messagesAreTexts_of_allTexts⟩
  by_contra neither
  rw [not_or] at neither
  rcases exists_not_isText neither.1 with ⟨name, phrase, found, list⟩
  rcases exists_included neither.2 with ⟨provenance, included⟩
  rcases mem_offenses_environmentCall found included with ⟨offense, reported, message⟩
  have written := texts _ provenance offense reported
  rw [message, list] at written
  cases written

theorem allTexts_of_plansApply (apply : configuration.PlansApply) :
    configuration.tables.deprecatedConstants.AllTexts ∨
      configuration.NeverRuns Rules.deprecatedConstant := by
  by_contra neither
  rw [not_or] at neither
  rcases exists_not_isText neither.1 with ⟨name, phrase, found, list⟩
  rcases exists_included neither.2 with ⟨provenance, included⟩
  rcases mem_offenses_constantNamed found included with ⟨offense, reported, has⟩
  rcases Correction.exists_mem_fixes reported has with ⟨accepted, inPlan⟩
  rcases Correction.exists_offense_of_mem_fixes inPlan with ⟨other, otherReported, otherHas⟩
  have applied := apply (formulaOf (constantNamed name)) provenance
  dsimp only at applied
  rw [Correction.isSome_splice?, List.all_eq_true] at applied
  have written := applied accepted inPlan
  rw [replacement_of_constantNamed found other otherReported accepted otherHas, list] at written
  cases written

theorem replacementsAreTexts_iff : configuration.ReplacementsAreTexts ↔
    configuration.tables.deprecatedConstants.AllTexts ∨
      configuration.NeverRuns Rules.deprecatedConstant :=
  ⟨fun texts => allTexts_of_plansApply (plansApply_of_replacementsAreTexts texts),
    replacementsAreTexts_of_allTexts⟩

theorem plansApply_iff : configuration.PlansApply ↔
    configuration.tables.deprecatedConstants.AllTexts ∨
      configuration.NeverRuns Rules.deprecatedConstant :=
  ⟨allTexts_of_plansApply, fun texts =>
    plansApply_of_replacementsAreTexts (replacementsAreTexts_of_allTexts texts)⟩

def ListsNoPhrase (document : Entries) : Prop :=
  document.Under Tables.environmentMessages.key Value.ListsNothing ∧
    document.Under Tables.constantReplacements.key Value.ListsNothing

/-- With documents on top of the packaged one, messages are texts, replacements are texts, and plans
apply, just if no list is to be found in the table in question or the rule that takes from it never
runs. It is so as soon as the documents list nothing under the keys of these tables. -/
theorem reports_areTexts_iff {documents : List Entries} {configuration : Configuration}
    (accepted : layered? documents = .ok configuration) :
    (configuration.MessagesAreTexts ↔
        configuration.tables.deprecatedEnvironmentMethods.AllTexts ∨
          configuration.NeverRuns Rules.deprecatedEnvMethod) ∧
      (configuration.ReplacementsAreTexts ↔
        configuration.tables.deprecatedConstants.AllTexts ∨
          configuration.NeverRuns Rules.deprecatedConstant) ∧
      (configuration.PlansApply ↔
        configuration.tables.deprecatedConstants.AllTexts ∨
          configuration.NeverRuns Rules.deprecatedConstant) ∧
      ((∀ document ∈ documents, ListsNoPhrase document) →
        configuration.MessagesAreTexts ∧ configuration.ReplacementsAreTexts ∧
          configuration.PlansApply) := by
  refine ⟨messagesAreTexts_iff, replacementsAreTexts_iff, plansApply_iff, fun plain => ?_⟩
  have messages := Dictionary.allTexts_of_forall_mem
    (rowsAreTexts_layered? (fun document member => (plain document member).1) accepted)
  have replacements := Dictionary.allTexts_of_forall_mem
    (rowsAreTexts_layered? (fun document member => (plain document member).2) accepted)
  exact ⟨messagesAreTexts_iff.mpr (.inl messages), replacementsAreTexts_iff.mpr (.inl replacements),
    plansApply_iff.mpr (.inl replacements)⟩

theorem reports_areTexts_packaged :
    ∃ configuration, layered? [] = .ok configuration ∧ configuration.MessagesAreTexts ∧
      configuration.ReplacementsAreTexts ∧ configuration.PlansApply := by
  have loads : (layered? []).isOk = true := by decide +kernel
  rcases Except.exists_of_isOk loads with ⟨configuration, accepted⟩
  exact ⟨configuration, accepted, (reports_areTexts_iff accepted).2.2.2 (List.forall_mem_nil _)⟩

def listedReplacement : Entries :=
  [(.text "deprecated_constants", .mapping [(.text "OLD", .list [.text "x"])])]

def suppliesList : Except ConfigFault Configuration → Bool
  | .ok configuration =>
      (configuration.tables.deprecatedConstants.get? "OLD").any (·.text?.isNone) &&
        configuration.policy.restrictions.all (·.rules == Rules.linuxCheck.id)
  | .error _ => false

private theorem exists_of_suppliesList {outcome : Except ConfigFault Configuration}
    (supplies : suppliesList outcome = true) :
    ∃ configuration phrase, outcome = .ok configuration ∧
      configuration.tables.deprecatedConstants.get? "OLD" = some phrase ∧ phrase.text? = none ∧
        configuration.policy.exempts Rules.deprecatedConstant.id ⟨none, none⟩ = false := by
  cases outcome with
  | error fault => cases supplies
  | ok configuration =>
      simp only [suppliesList, Bool.and_eq_true, Option.any_eq_true, Option.isNone_iff_eq_none,
        List.all_eq_true, beq_iff_eq] at supplies
      rcases supplies with ⟨⟨phrase, found, list⟩, restricts⟩
      refine ⟨configuration, phrase, rfl, found, list, ?_⟩
      rw [Policy.exempts_nowhere, List.any_eq_false]
      intro restriction member
      rw [Restriction.covers, restricts restriction member, Glob.covers_of_plain (by decide)]
      decide

/-- It is accepted, the constant is reported with the list, and the plan of the report does not
apply. -/
theorem not_plansApply_listedReplacement :
    ∃ configuration, layered? [listedReplacement] = .ok configuration ∧
      (formulaOf (constantNamed "OLD")).ReadFrom "OLD" ∧
      (∃ offense ∈ (configuration.builtInAudit.run (formulaOf (constantNamed "OLD"))
          ⟨none, none⟩).1.offenses,
        ∃ fix, offense.fix = some fix ∧ fix.replacement.text? = none) ∧
      ¬configuration.ReplacementsAreTexts ∧ ¬configuration.PlansApply := by
  have supplies : suppliesList (layered? [listedReplacement]) = true := by decide +kernel
  rcases exists_of_suppliesList supplies with
    ⟨configuration, phrase, accepted, found, list, included⟩
  have mixed : ¬configuration.tables.deprecatedConstants.AllTexts := by
    intro texts
    have written := texts "OLD" phrase found
    rw [list] at written
    cases written
  have neither : ¬(configuration.tables.deprecatedConstants.AllTexts ∨
      configuration.NeverRuns Rules.deprecatedConstant) :=
    not_or.mpr ⟨mixed, not_neverRuns included⟩
  have read : (formulaOf (constantNamed "OLD")).ReadFrom "OLD" :=
    ⟨⟨⟨"program", true, none, 0, 3, [⟨"constant", true, none, 0, 3, []⟩]⟩, false⟩, rfl⟩
  rcases mem_offenses_constantNamed found included with ⟨offense, reported, has⟩
  exact ⟨configuration, accepted, read, ⟨offense, reported, _, has, list⟩,
    fun texts => neither (replacementsAreTexts_iff.mp texts),
    fun apply => neither (plansApply_iff.mp apply)⟩

end Configuration

end FormulaLint
