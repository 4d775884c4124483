import FormulaLint.Proofs.RuleByRule

/-! Reports on a choice of rules. Two audits that treat the chosen rules alike report the same about
them, whatever other rules they have: neither the traversal nor the order of a family lets one rule
disturb another. -/

namespace FormulaLint

/-- What a report says about the rules with chosen ids. -/
def FormulaReport.onRules (chosen : String → Bool) (report : FormulaReport) : FormulaReport :=
  { report with
    offenses := report.offenses.filter fun offense => chosen offense.rule
    failedRules := report.failedRules.filter chosen }

namespace Catalogue

def chosenRules (catalogue : Catalogue) (chosen : String → Bool) : List Rule :=
  catalogue.rules.filter fun rule => chosen rule.id

def chosenFamilies (catalogue : Catalogue) (chosen : String → Bool) : List String :=
  catalogue.families.filter fun family =>
    (catalogue.chosenRules chosen).any fun rule => rule.family = family

variable (catalogue : Catalogue)

theorem mem_chosenRules {chosen : String → Bool} {rule : Rule} :
    rule ∈ catalogue.chosenRules chosen ↔ rule ∈ catalogue.rules ∧ chosen rule.id = true :=
  List.mem_filter

private theorem sublist_chosenRules (chosen : String → Bool) :
    (catalogue.chosenRules chosen).Sublist catalogue.rules :=
  List.filter_sublist

def place (rule : Rule) : Nat :=
  (catalogue.position? rule.id).getD 0

private theorem place_getElem {position : Nat} (bound : position < catalogue.rules.length) :
    catalogue.place catalogue.rules[position] = position := by
  rw [place, catalogue.position?_of_getElem? (List.getElem?_eq_getElem bound), Option.getD_some]

private theorem pairwise_place : catalogue.rules.Pairwise fun left right =>
    catalogue.place left < catalogue.place right := by
  rw [List.pairwise_iff_getElem]
  intro first second firstBound secondBound before
  rwa [place_getElem, place_getElem]

theorem place_le_place_iff {rules : List Rule} (among : rules.Sublist catalogue.rules)
    {first second : Nat} (firstBound : first < rules.length) (secondBound : second < rules.length) :
    catalogue.place rules[first] ≤ catalogue.place rules[second] ↔ first ≤ second := by
  have increasing := List.pairwise_iff_getElem.mp (catalogue.pairwise_place.sublist among)
  rcases Nat.lt_trichotomy first second with before | same | after
  · have less := increasing first second firstBound secondBound before
    omega
  · subst same
    simp
  · have less := increasing second first secondBound firstBound after
    omega

end Catalogue

namespace Audit

theorem flatMap_filter_eq {α β : Type} (make : α → List β) (keeps : α → Bool) (values : List α) :
    (values.filter keeps).flatMap make =
      values.flatMap fun value => if keeps value then make value else [] := by
  induction values with
  | nil => rfl
  | cons head tail induction =>
      rw [List.filter_cons, List.flatMap_cons, ← induction]
      split
      · rw [List.flatMap_cons]
      · rw [List.nil_append]

/-! ## The order of findings -/

namespace Finding

theorem precedes_trans (order : ReportOrder) (first second third : Finding)
    (before : precedes order first second = true) (after : precedes order second third = true) :
    precedes order first third = true := by
  cases order <;> simp only [precedes, notAfter_eq, decide_eq_true_eq] at before after ⊢
  · exact le_trans before after
  · exact le_trans after before

theorem precedes_total (order : ReportOrder) (left right : Finding) :
    (precedes order left right || precedes order right left) = true := by
  cases order <;> simp only [precedes, notAfter_eq, Bool.or_eq_true, decide_eq_true_eq]
  · exact le_total left.key right.key
  · exact le_total right.key left.key

def placedIn (catalogue : Catalogue) (finding : Finding) : Finding :=
  { finding with position := catalogue.place finding.rule }

theorem precedes_placedIn {catalogue : Catalogue} {left right : Finding}
    (forward : catalogue.place left.rule ≤ catalogue.place right.rule ↔
      left.position ≤ right.position)
    (backward : catalogue.place right.rule ≤ catalogue.place left.rule ↔
      right.position ≤ left.position) (order : ReportOrder) :
    precedes order (left.placedIn catalogue) (right.placedIn catalogue) =
      precedes order left right := by
  cases order with
  | ascending =>
      simp only [precedes, notAfter_eq, key, placedIn, Prod.Lex.toLex_le_toLex, forward]
  | descending =>
      simp only [precedes, notAfter_eq, key, placedIn, Prod.Lex.toLex_le_toLex, backward]

end Finding

/-! ## Catalogues with the same chosen rules -/

section

variable {left right : Catalogue} {chosen : String → Bool}
variable (rules : left.chosenRules chosen = right.chosenRules chosen)

include rules

theorem place_le_iff {first second : Rule} (firstMember : first ∈ left.chosenRules chosen)
    (secondMember : second ∈ left.chosenRules chosen) :
    right.place first ≤ right.place second ↔ left.place first ≤ left.place second := by
  rcases List.getElem_of_mem firstMember with ⟨firstIndex, firstBound, rfl⟩
  rcases List.getElem_of_mem secondMember with ⟨secondIndex, secondBound, rfl⟩
  rw [left.place_le_place_iff (left.sublist_chosenRules chosen),
    right.place_le_place_iff (rules ▸ right.sublist_chosenRules chosen)]

variable {before after : AuditProgress}
variable (drafts : ∀ rule ∈ left.chosenRules chosen,
  before.draftsOf rule.id = after.draftsOf rule.id)

omit rules in
theorem filter_findings (catalogue : Catalogue) (progress : AuditProgress)
    (chosen : String → Bool) (family : String) :
    (findings catalogue progress family).filter (fun finding => chosen finding.rule.id) =
      ((catalogue.chosenRules chosen).filter fun rule => rule.family = family).flatMap fun rule =>
        (progress.draftsOf rule.id).map fun draft => ⟨rule, catalogue.place rule, draft⟩ := by
  rw [findings, List.filter_flatMap, Catalogue.chosenRules, List.filter_comm,
    flatMap_filter_eq _ fun rule : Rule => chosen rule.id]
  apply List.flatMap_congr
  intro rule _
  rw [List.filter_map]
  by_cases wanted : chosen rule.id = true <;> simp [wanted, Function.comp_def, Catalogue.place]

include drafts

theorem filter_findings_eq_map (family : String) :
    (findings right after family).filter (fun finding => chosen finding.rule.id) =
      ((findings left before family).filter fun finding => chosen finding.rule.id).map
        (Finding.placedIn right) := by
  rw [filter_findings, filter_findings, List.map_flatMap, ← rules]
  apply List.flatMap_congr
  intro rule member
  rw [List.map_map, drafts rule (List.mem_filter.mp member).1]
  rfl

theorem filter_stableSort_findings_eq_map (order : ReportOrder) (family : String) :
    (stableSort (Finding.precedes order) (findings right after family)).filter
        (fun finding => chosen finding.rule.id) =
      ((stableSort (Finding.precedes order) (findings left before family)).filter
        fun finding => chosen finding.rule.id).map (Finding.placedIn right) := by
  rw [filter_stableSort (Finding.precedes_trans order) (Finding.precedes_total order),
    filter_stableSort (Finding.precedes_trans order) (Finding.precedes_total order),
    filter_findings_eq_map rules drafts]
  apply stableSort_map
  have stands : ∀ finding ∈ (findings left before family).filter
      (fun finding => chosen finding.rule.id),
      finding.rule ∈ left.chosenRules chosen ∧ finding.position = left.place finding.rule := by
    intro finding member
    rw [filter_findings] at member
    rcases List.mem_flatMap.mp member with ⟨rule, chosenRule, made⟩
    rcases List.mem_map.mp made with ⟨draft, -, rfl⟩
    exact ⟨(List.mem_filter.mp chosenRule).1, rfl⟩
  intro first firstMember second secondMember
  rcases stands first firstMember with ⟨firstChosen, firstPlace⟩
  rcases stands second secondMember with ⟨secondChosen, secondPlace⟩
  apply Finding.precedes_placedIn
  · rw [firstPlace, secondPlace]
    exact place_le_iff rules firstChosen secondChosen
  · rw [firstPlace, secondPlace]
    exact place_le_iff rules secondChosen firstChosen

end

/-! ## Audits that agree on the chosen rules -/

/-- Two audits of a formula agree on the rules with chosen ids: they have the same ones, which stand
in the same order and whose families do, they leave out the same, and the rest finds the same. -/
structure AgreeOn (left right : Audit) (formula : Formula) (here there : Provenance)
    (chosen : String → Bool) : Prop where
  rules : left.catalogue.chosenRules chosen = right.catalogue.chosenRules chosen
  families : left.catalogue.chosenFamilies chosen = right.catalogue.chosenFamilies chosen
  leavesOut : ∀ rule ∈ left.catalogue.chosenRules chosen,
    left.leavesOut here rule = right.leavesOut there rule
  detect : ∀ rule ∈ left.catalogue.chosenRules chosen,
    rule.detect (left.surroundings formula here) = rule.detect (right.surroundings formula there)

/-- The offenses of the chosen rules, family by family. Families without such a rule add nothing. -/
theorem filter_arrange (catalogue : Catalogue) (progress : AuditProgress)
    (chosen : String → Bool) :
    (arrange catalogue progress).filter (fun finding => chosen finding.rule.id) =
      (catalogue.chosenFamilies chosen).flatMap fun family =>
        (stableSort (Finding.precedes ((catalogue.order? family).getD .ascending))
          (findings catalogue progress family)).filter fun finding => chosen finding.rule.id := by
  rw [arrange, List.filter_flatMap, Catalogue.chosenFamilies, flatMap_filter_eq]
  apply List.flatMap_congr
  intro family _
  split
  · rfl
  · next unchosen =>
      rw [filter_stableSort (Finding.precedes_trans _) (Finding.precedes_total _),
        filter_findings]
      have none : ((catalogue.chosenRules chosen).filter fun rule => rule.family = family) = [] := by
        simpa [List.filter_eq_nil_iff] using unchosen
      rw [none]
      rfl

namespace AgreeOn

variable {left right : Audit} {formula : Formula} {here there : Provenance}
variable {chosen : String → Bool} (agree : AgreeOn left right formula here there chosen)

include agree

theorem ruleFails {rule : Rule} (member : rule ∈ left.catalogue.chosenRules chosen) :
    left.ruleFails formula here rule = right.ruleFails formula there rule := by
  unfold Audit.ruleFails Rule.failsOn
  rw [agree.detect rule member]

private theorem ruleDrafts {rule : Rule} (member : rule ∈ left.catalogue.chosenRules chosen) :
    left.ruleDrafts formula here rule = right.ruleDrafts formula there rule := by
  unfold Audit.ruleDrafts Rule.draftsOn
  rw [agree.ruleFails member, agree.leavesOut rule member, agree.detect rule member]

private theorem order? {family : String} (member : family ∈ left.catalogue.chosenFamilies chosen) :
    left.catalogue.order? family = right.catalogue.order? family := by
  rcases List.any_eq_true.mp (List.mem_filter.mp member).2 with ⟨rule, inLeft, same⟩
  have inRight := agree.rules ▸ inLeft
  rw [← of_decide_eq_true same,
    left.catalogue.order?_family (left.catalogue.mem_chosenRules.mp inLeft).1,
    right.catalogue.order?_family (right.catalogue.mem_chosenRules.mp inRight).1]

theorem drafts {rule : Rule} (member : rule ∈ left.catalogue.chosenRules chosen) :
    (left.lastProgress formula here).draftsOf rule.id =
      (right.lastProgress formula there).draftsOf rule.id := by
  have inRight := agree.rules ▸ member
  rw [draftsOf_lastProgress formula here (left.catalogue.mem_chosenRules.mp member).1,
    draftsOf_lastProgress formula there (right.catalogue.mem_chosenRules.mp inRight).1,
    agree.ruleDrafts member]

theorem offenses :
    (left.run formula here).1.offenses.filter (fun offense => chosen offense.rule) =
      (right.run formula there).1.offenses.filter fun offense => chosen offense.rule := by
  have reported (audit : Audit) (provenance : Provenance) :
      (audit.run formula provenance).1.offenses.filter (fun offense => chosen offense.rule) =
        ((arrange audit.catalogue (audit.lastProgress formula provenance)).filter
          fun finding => chosen finding.rule.id).map
            fun finding => offense formula finding.rule finding.draft := by
    rw [run_eq_of_lastProgress, List.filter_map]
    rfl
  rw [reported, reported, filter_arrange, filter_arrange, ← agree.families, List.map_flatMap,
    List.map_flatMap]
  apply List.flatMap_congr
  intro family member
  rw [← agree.order? member, filter_stableSort_findings_eq_map agree.rules
    (fun _ => agree.drafts), List.map_map]
  rfl

theorem failedRules :
    (left.run formula here).1.failedRules.filter chosen =
      (right.run formula there).1.failedRules.filter chosen := by
  have reported (audit : Audit) (provenance : Provenance) :
      (audit.run formula provenance).1.failedRules.filter chosen =
        ((audit.catalogue.chosenRules chosen).filter fun rule =>
          !audit.leavesOut provenance rule &&
            audit.ruleFails formula provenance rule).map (·.id) := by
    rw [fst_run, ruleByRule, List.filter_map, Catalogue.chosenRules, List.filter_comm]
    rfl
  rw [reported, reported, ← agree.rules]
  congr 1
  apply List.filter_congr
  intro rule member
  rw [agree.leavesOut rule member, agree.ruleFails member]

theorem onRules_run :
    (left.run formula here).1.onRules chosen =
      { (right.run formula there).1.onRules chosen with path := here.path } := by
  rw [FormulaReport.onRules, agree.offenses, agree.failedRules]
  rfl

end AgreeOn

/-! ## Rules that report names -/

def nameFormula : Formula where
  source := "b a"
  root := ⟨"program", true, none, ⟨1, 0, 1, 3, 0, 3⟩, "b a", [
    ⟨"identifier", true, none, ⟨1, 0, 1, 1, 0, 1⟩, "b", []⟩,
    ⟨"identifier", true, none, ⟨1, 2, 1, 3, 2, 3⟩, "a", []⟩]⟩
  hasError := false

def nameRule (family name : String) (order : ReportOrder) (failsAt : Option String) : Rule where
  id := family ++ "/" ++ name
  family := family
  title := name ++ "Rule"
  kinds := [.identifier]
  severity := .warning
  correctable := false
  order := order
  detect := fun _ site =>
    if failsAt = some site.node.text then none else some [site.node.report name none]

end Audit

end FormulaLint
