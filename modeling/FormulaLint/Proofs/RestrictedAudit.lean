import FormulaLint.Proofs.ChosenRules
import FormulaLint.Proofs.Exemptions
import FormulaLint.Rules.BuiltIn

/-! Restricted audits. To audit with some families only, or under an exemption policy, is to audit
with everything and to take the report on the rules that are left. -/

namespace FormulaLint

/-! ## Rules that do not ask where a formula comes from -/

/-- A rule that finds the same in a formula wherever the formula comes from. -/
def Rule.IgnoresProvenance (rule : Rule) : Prop :=
  ∀ (formula : Formula) (tables : Tables) (here there : Provenance),
    rule.detect ⟨formula, here, tables⟩ = rule.detect ⟨formula, there, tables⟩

theorem Rules.ignoresProvenance_builtIn : ∀ rule ∈ Rules.builtIn, rule.IgnoresProvenance := by
  simp only [Rules.builtIn, List.forall_mem_cons]
  refine ⟨?_, ?_, ?_, ?_, ?_, ?_, ?_, ?_, ?_, ?_, ?_, ?_, ?_, ?_, ?_, ?_, ?_, ?_, ?_, ?_, ?_, ?_, ?_,
    ?_, ?_, ?_, ?_, ?_, ?_, ?_, ?_, ?_, ?_, ?_, ?_, ?_, ?_, ?_, ?_, List.forall_mem_nil _⟩
  all_goals exact fun _ _ _ _ => rfl

/-! ## Restricted catalogues -/

namespace Catalogue

variable (catalogue : Catalogue)

def belongsTo (families : List String) (id : String) : Bool :=
  (catalogue.find? id).any fun rule => families.contains rule.family

theorem chosenRules_belongsTo (families : List String) :
    catalogue.chosenRules (catalogue.belongsTo families) =
      catalogue.rules.filter fun rule => families.contains rule.family := by
  apply List.filter_congr
  intro rule member
  rw [belongsTo, catalogue.find?_of_mem member, Option.any_some]

theorem exists_ofFamilies {families : List String} (nonempty : families ≠ [])
    (known : ∀ family ∈ families, family ∈ catalogue.families) :
    ∃ selected, catalogue.ofFamilies families = .ok selected ∧
      selected.rules = catalogue.rules.filter fun rule => families.contains rule.family := by
  have noneUnknown : (families.filter fun family => (catalogue.order? family).isNone) = [] := by
    rw [List.filter_eq_nil_iff]
    intro family member unknown
    have isSome := (catalogue.describes.isSome_orders_iff family).mpr
      (List.mem_eraseDups.mp (catalogue.families_eq ▸ known family member))
    rw [← Option.not_isSome, order?, isSome] at unknown
    cases unknown
  rcases exists_of_faultless (catalogue.faultless.sublist
      (List.filter_sublist (p := fun rule => families.contains rule.family))) with
    ⟨selected, made, rules⟩
  refine ⟨selected, ?_, rules⟩
  rw [ofFamilies, if_neg (by simpa using nonempty)]
  simp only [noneUnknown, List.isEmpty_nil, if_true]
  exact made

end Catalogue

namespace Audit

variable (audit : Audit) (formula : Formula) (provenance : Provenance)

theorem onRules_run_eq_self {chosen : String → Bool}
    (all : ∀ rule ∈ audit.catalogue.rules,
      audit.leavesOut provenance rule = false → chosen rule.id = true) :
    (audit.run formula provenance).1.onRules chosen = (audit.run formula provenance).1 := by
  have offenses : (audit.run formula provenance).1.offenses.filter
      (fun offense => chosen offense.rule) = (audit.run formula provenance).1.offenses := by
    rw [List.filter_eq_self]
    intro found reported
    rcases (audit.mem_offenses_run_iff formula provenance).mp reported with
      ⟨rule, member, draft, drafted, rfl⟩
    refine all rule member (Bool.eq_false_of_not_eq_true fun exempt => ?_)
    rw [ruleDrafts, exempt, Bool.true_or, if_pos rfl] at drafted
    cases drafted
  have failedRules : (audit.run formula provenance).1.failedRules.filter chosen =
      (audit.run formula provenance).1.failedRules := by
    rw [List.filter_eq_self]
    intro id failed
    rw [fst_run] at failed
    rcases List.mem_map.mp failed with ⟨rule, listed, rfl⟩
    rcases List.mem_filter.mp listed with ⟨member, fails⟩
    rw [Bool.and_eq_true, Bool.not_eq_true'] at fails
    exact all rule member fails.1
  rw [FormulaReport.onRules, offenses, failedRules]

/-! ## Some families -/

/-- The audit with some families finds what the whole audit finds of them. -/
theorem agreeOn_families {families : List String} {selected : Catalogue}
    (rules : selected.rules =
      audit.catalogue.rules.filter fun rule => families.contains rule.family) :
    AgreeOn ⟨selected, audit.configuration⟩ audit formula provenance provenance
      (audit.catalogue.belongsTo families) := by
  have chosen : selected.chosenRules (audit.catalogue.belongsTo families) =
      audit.catalogue.chosenRules (audit.catalogue.belongsTo families) := by
    rw [Catalogue.chosenRules, rules, Catalogue.chosenRules_belongsTo, List.filter_comm,
      ← Catalogue.chosenRules, Catalogue.chosenRules_belongsTo, List.filter_filter]
    simp only [Bool.and_self]
  have names : selected.families =
      audit.catalogue.families.filter fun family => families.contains family := by
    rw [Catalogue.families_eq, Catalogue.families_eq, filter_eraseDups, rules,
      List.filter_map]
    rfl
  refine { rules := chosen, families := ?_, leavesOut := fun _ _ => rfl, detect := fun _ _ => rfl }
  rw [Catalogue.chosenFamilies, Catalogue.chosenFamilies, names, chosen,
    Catalogue.chosenRules_belongsTo, List.filter_filter]
  apply List.filter_congr
  intro family _
  rw [Bool.and_eq_left_iff_imp, List.any_eq_true]
  rintro ⟨rule, listed, same⟩
  exact of_decide_eq_true same ▸ (List.mem_filter.mp listed).2

/-! ## Exemptions -/

def withoutPolicy : Audit :=
  { audit with configuration := { audit.configuration with policy := {} } }

def includes (id : String) : Bool :=
  !audit.configuration.policy.exempts id provenance

private theorem agreeOn_includes (elsewhere : Provenance)
    (detect : ∀ rule ∈ audit.catalogue.rules,
      rule.detect (audit.surroundings formula provenance) =
        rule.detect (audit.surroundings formula elsewhere)) :
    AgreeOn audit audit.withoutPolicy formula provenance elsewhere
      (audit.includes provenance) where
  rules := rfl
  families := rfl
  leavesOut rule member := by
    have included := (audit.catalogue.mem_chosenRules.mp member).2
    rw [includes, Bool.not_eq_true'] at included
    rw [Audit.leavesOut, included]
    rfl
  detect rule member := detect rule (audit.catalogue.mem_chosenRules.mp member).1

theorem run_eq_onRules_includes (elsewhere : Provenance)
    (detect : ∀ rule ∈ audit.catalogue.rules,
      rule.detect (audit.surroundings formula provenance) =
        rule.detect (audit.surroundings formula elsewhere)) :
    (audit.run formula provenance).1 =
      { (audit.withoutPolicy.run formula elsewhere).1.onRules (audit.includes provenance) with
        path := provenance.path } := by
  rw [← (audit.agreeOn_includes formula provenance elsewhere detect).onRules_run,
    audit.onRules_run_eq_self]
  intro rule _ included
  rw [includes, Bool.not_eq_true']
  exact included

theorem exists_selected_run_eq {families : List String} (nonempty : families ≠ [])
    (known : ∀ family ∈ families, family ∈ audit.catalogue.families) :
    ∃ selected, audit.catalogue.ofFamilies families = .ok selected ∧
      ((⟨selected, audit.configuration⟩ : Audit).run formula provenance).1 =
        (audit.run formula provenance).1.onRules (audit.catalogue.belongsTo families) := by
  rcases audit.catalogue.exists_ofFamilies nonempty known with ⟨selected, made, rules⟩
  refine ⟨selected, made, ?_⟩
  rw [← onRules_run_eq_self ⟨selected, audit.configuration⟩,
    (audit.agreeOn_families formula provenance rules).onRules_run]
  · rfl
  · intro rule member _
    rw [rules, ← Catalogue.chosenRules_belongsTo] at member
    exact (audit.catalogue.mem_chosenRules.mp member).2

/-! ## Restriction is filtering -/

/-- Any families of a catalogue can be selected, and what is then reported is what the whole audit
reports about their rules. What is reported under a policy is what is reported without one about the
rules that the policy does not leave out; for rules that do not ask where a formula comes from, such
as all built-in ones, the report without a policy may be that on any other file. -/
theorem run_restricted :
    (∀ families : List String, families ≠ [] →
      (∀ family ∈ families, family ∈ audit.catalogue.families) →
        ∃ selected, audit.catalogue.ofFamilies families = .ok selected ∧
          ((⟨selected, audit.configuration⟩ : Audit).run formula provenance).1 =
            (audit.run formula provenance).1.onRules (audit.catalogue.belongsTo families)) ∧
      (audit.run formula provenance).1 =
        (audit.withoutPolicy.run formula provenance).1.onRules (audit.includes provenance) ∧
      ((∀ rule ∈ audit.catalogue.rules, rule.IgnoresProvenance) → ∀ elsewhere,
        (audit.run formula provenance).1 =
          { (audit.withoutPolicy.run formula elsewhere).1.onRules (audit.includes provenance) with
            path := provenance.path }) ∧
      ∀ rule ∈ Catalogue.builtIn.rules, rule.IgnoresProvenance := by
  refine ⟨?_, ?_, ?_, Rules.ignoresProvenance_builtIn⟩
  · intro families nonempty known
    exact audit.exists_selected_run_eq formula provenance nonempty known
  · exact audit.run_eq_onRules_includes formula provenance provenance fun _ _ => rfl
  · intro ignoring elsewhere
    apply audit.run_eq_onRules_includes formula provenance elsewhere
    intro rule member
    exact ignoring rule member formula audit.configuration.tables provenance elsewhere

/-- Two families whose rules alternate. One rule fails at the first name, another one is restricted
to files with a path. -/
def alternatingAudit : Audit where
  catalogue := .ofFaultless [nameRule "Name" "First" .descending none,
    nameRule "Other" "Failing" .ascending (some "b"), nameRule "Name" "Last" .descending none,
    nameRule "Other" "Steady" .ascending none] (by decide)
  configuration := { policy := { restrictions := [⟨"Name/First", ⟨"", .empty, []⟩⟩] } }

theorem run_restricted_alternating :
    let report := (alternatingAudit.run nameFormula ⟨none, none⟩).1
    (∀ family ∈ ["Other"], family ∈ alternatingAudit.catalogue.families) ∧
      (∃ selected, alternatingAudit.catalogue.ofFamilies ["Other"] = .ok selected ∧
        ((⟨selected, alternatingAudit.configuration⟩ : Audit).run nameFormula ⟨none, none⟩).1 =
          report.onRules (alternatingAudit.catalogue.belongsTo ["Other"])) ∧
      (∀ rule ∈ alternatingAudit.catalogue.rules, rule.IgnoresProvenance) ∧
      report = { (alternatingAudit.withoutPolicy.run nameFormula ⟨some "a.rb", some "A"⟩).1.onRules
        (alternatingAudit.includes ⟨none, none⟩) with path := none } ∧
      report.failedRules = ["Other/Failing"] ∧
      report.offenses.map (fun offense => (offense.rule, offense.column)) =
        [("Name/Last", 2), ("Name/Last", 0), ("Other/Steady", 0), ("Other/Steady", 2)] := by
  rcases run_restricted alternatingAudit nameFormula ⟨none, none⟩ with ⟨select, -, exempt, -⟩
  have known : ∀ family ∈ ["Other"], family ∈ alternatingAudit.catalogue.families := by
    decide
  have ignoring : ∀ rule ∈ alternatingAudit.catalogue.rules, rule.IgnoresProvenance := by
    simp only [alternatingAudit, Catalogue.ofFaultless, List.forall_mem_cons]
    exact ⟨fun _ _ _ _ => rfl, fun _ _ _ _ => rfl, fun _ _ _ _ => rfl, fun _ _ _ _ => rfl,
      List.forall_mem_nil _⟩
  have covers := Glob.covers_of_plain (show "Name/First".toList.all _ = true by decide)
  have active : alternatingAudit.activeIds ⟨none, none⟩ =
      ["Other/Failing", "Name/Last", "Other/Steady"] := by
    unfold activeIds
    simp only [Policy.exempts_nowhere, alternatingAudit, List.any_cons, List.any_nil,
      Restriction.covers, covers]
    decide +kernel
  refine ⟨known, select ["Other"] (by decide) known, ignoring, exempt ignoring _, ?_, ?_⟩
  · unfold run
    rw [active]
    decide +kernel
  · unfold run
    rw [active]
    decide +kernel

end Audit

end FormulaLint
