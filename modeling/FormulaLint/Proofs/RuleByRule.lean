import FormulaLint.Proofs.AuditProgress
import FormulaLint.Proofs.TreeWalk
import Mathlib.Data.Prod.Lex
import Mathlib.Data.List.Perm.Basic
import Mathlib.Data.List.Induction

/-! The account of an audit rule by rule. Here each rule is taken by itself and shown the whole
tree, where the audit shows each site of the tree to all rules. Both give the same report. -/

namespace FormulaLint.Audit

/-! ## The account -/

section

variable (audit : Audit) (formula : Formula) (provenance : Provenance)

def surroundings : Surroundings :=
  ⟨formula, provenance, audit.configuration.tables⟩

def leavesOut (rule : Rule) : Bool :=
  audit.configuration.policy.exempts rule.id provenance

def ruleFails (rule : Rule) : Bool :=
  rule.failsOn (audit.surroundings formula provenance) (Site.preorder [] formula.root)

/-- The drafts of a rule at all nodes of its kinds, in the order of the recursion on the tree. There
are none of a rule that is left out for the file or fails anywhere. -/
def ruleDrafts (rule : Rule) : List Draft :=
  if audit.leavesOut provenance rule || audit.ruleFails formula provenance rule then []
  else rule.draftsOn (audit.surroundings formula provenance) (Site.preorder [] formula.root)

def Finding.key (finding : Finding) : Int ×ₗ Int ×ₗ Nat :=
  toLex (finding.draft.line, toLex (finding.draft.column, finding.position))

def familyFindings (family : String) : List Finding :=
  (audit.catalogue.rules.zipIdx.filter fun entry => entry.1.family = family).flatMap fun entry =>
    (audit.ruleDrafts formula provenance entry.1).map fun draft => ⟨entry.1, entry.2, draft⟩

/-- A family lists its findings by their keys, from the greatest down if its rules say so. Findings
with one key stay in the order in which they were made. -/
def familyAccount (family : String) : List Finding :=
  let found := audit.familyFindings formula provenance family
  if audit.catalogue.rules.any fun rule => rule.family = family && rule.order = .descending then
    found.mergeSort fun left right => right.key ≤ left.key
  else
    found.mergeSort fun left right => left.key ≤ right.key

/-- A draft in a report: with the id and the severity of its rule, and the line of source that it is
about. -/
def reported (rule : Rule) (draft : Draft) : Offense where
  rule := rule.id
  message := draft.message
  severity := rule.severity
  line := draft.line
  column := draft.column
  sourceLine := formula.shownLine draft.line
  fix := draft.fix
  corrected := false

/-- The report rule by rule, the families in order of first appearance. -/
def ruleByRule : FormulaReport where
  path := provenance.path
  offenses :=
    ((audit.catalogue.rules.map (·.family)).eraseDups.flatMap
      (audit.familyAccount formula provenance)).map fun finding =>
        reported formula finding.rule finding.draft
  failedRules :=
    (audit.catalogue.rules.filter fun rule =>
      !audit.leavesOut provenance rule && audit.ruleFails formula provenance rule).map (·.id)

end

/-! ## The order of findings -/

namespace Finding

theorem notAfter_eq (left right : Finding) :
    left.notAfter right = decide (left.key ≤ right.key) := by
  unfold notAfter key
  rw [Bool.eq_iff_iff]
  simp only [decide_eq_true_eq, Prod.Lex.toLex_le_toLex]
  split
  · next lines => simp [lines]
  · next lines =>
      rw [Decidable.not_not] at lines
      split
      · next columns => simp [lines, columns]
      · next columns =>
          rw [Decidable.not_not] at columns
          simp [lines, columns]

private theorem stableSort_ascending (found : List Finding) :
    stableSort (precedes .ascending) found =
      found.mergeSort fun left right => left.key ≤ right.key := by
  have same : precedes .ascending = fun left right => decide (left.key ≤ right.key) := by
    funext left right
    exact notAfter_eq left right
  rw [same]
  apply stableSort_eq_mergeSort
  · intro first second third before after
    exact decide_eq_true (le_trans (of_decide_eq_true before) (of_decide_eq_true after))
  · intro left right
    simpa using le_total left.key right.key

private theorem stableSort_descending (found : List Finding) :
    stableSort (precedes .descending) found =
      found.mergeSort fun left right => right.key ≤ left.key := by
  have same : precedes .descending = fun left right => decide (right.key ≤ left.key) := by
    funext left right
    exact notAfter_eq right left
  rw [same]
  apply stableSort_eq_mergeSort
  · intro first second third before after
    exact decide_eq_true (le_trans (of_decide_eq_true after) (of_decide_eq_true before))
  · intro left right
    simpa using le_total right.key left.key

end Finding

/-! ## The report is the account -/

section

variable (audit : Audit) (formula : Formula) (provenance : Provenance)

def lastProgress : AuditProgress :=
  visitAll audit.catalogue (audit.surroundings formula provenance) (audit.activeIds provenance)
    formula.walk

variable {audit}

theorem mem_activeIds {rule : Rule} (member : rule ∈ audit.catalogue.rules) :
    rule.id ∈ audit.activeIds provenance ↔ audit.leavesOut provenance rule = false := by
  rw [activeIds, leavesOut, List.mem_filter, Bool.not_eq_true']
  exact and_iff_right (List.mem_map_of_mem member)

theorem draftsOf_lastProgress {rule : Rule} (member : rule ∈ audit.catalogue.rules) :
    (audit.lastProgress formula provenance).draftsOf rule.id =
      audit.ruleDrafts formula provenance rule := by
  rw [lastProgress, ruleDrafts, ruleFails, draftsOf_visitAll _ _ _ member, Formula.walk,
    Node.walk_eq_preorder]
  simp only [mem_activeIds provenance member]
  cases audit.leavesOut provenance rule <;>
    cases rule.failsOn (audit.surroundings formula provenance)
      (Site.preorder [] formula.root) <;> rfl

private theorem mem_failed_lastProgress {rule : Rule} (member : rule ∈ audit.catalogue.rules) :
    rule.id ∈ (audit.lastProgress formula provenance).failed ↔
      audit.leavesOut provenance rule = false ∧ audit.ruleFails formula provenance rule = true := by
  rw [lastProgress, ruleFails, mem_failed_visitAll _ _ _ member,
    mem_activeIds provenance member, Formula.walk, Node.walk_eq_preorder]

variable (audit)

private theorem findings_lastProgress (family : String) :
    findings audit.catalogue (audit.lastProgress formula provenance) family =
      audit.familyFindings formula provenance family := by
  have rules : (audit.catalogue.rules.filter fun rule => rule.family = family) =
      (audit.catalogue.rules.zipIdx.filter fun entry => entry.1.family = family).map (·.1) := by
    conv_lhs => rw [← List.zipIdx_map_fst 0 audit.catalogue.rules, List.filter_map]
    rfl
  rw [findings, familyFindings, rules, List.flatMap_map]
  apply List.flatMap_congr
  intro entry member
  have stands : audit.catalogue.rules[entry.2]? = some entry.1 :=
    List.mem_zipIdx_iff_getElem?.mp (List.mem_filter.mp member).1
  rw [draftsOf_lastProgress formula provenance (List.mem_of_getElem? stands),
    audit.catalogue.position?_of_getElem? stands, Option.getD_some]

/-- A family is descending as soon as one of its rules says so. -/
theorem order?_eq_descending_iff {family : String} (known : family ∈ audit.catalogue.families) :
    audit.catalogue.order? family = some .descending ↔
      (audit.catalogue.rules.any fun rule =>
        rule.family = family && rule.order = .descending) = true := by
  simp only [List.any_eq_true, Bool.and_eq_true, decide_eq_true_eq]
  constructor
  · intro declared
    rw [Catalogue.families_eq, List.mem_eraseDups, List.mem_map] at known
    rcases known with ⟨rule, member, same⟩
    have order := audit.catalogue.order?_family member
    rw [same, declared] at order
    exact ⟨rule, member, same, (Option.some.inj order).symm⟩
  · rintro ⟨rule, member, rfl, descending⟩
    rw [audit.catalogue.order?_family member, descending]

private theorem arrange_lastProgress :
    arrange audit.catalogue (audit.lastProgress formula provenance) =
      audit.catalogue.families.flatMap (audit.familyAccount formula provenance) := by
  unfold arrange
  apply List.flatMap_congr
  intro family known
  have descending := order?_eq_descending_iff audit known
  simp only [findings_lastProgress, familyAccount]
  split
  · next declared =>
      rw [descending.mpr declared, Option.getD_some, Finding.stableSort_descending]
  · next undeclared =>
      have order : (audit.catalogue.order? family).getD .ascending = .ascending := by
        match found : audit.catalogue.order? family with
        | none => rfl
        | some .ascending => rfl
        | some .descending => exact absurd (descending.mp found) undeclared
      rw [order, Finding.stableSort_ascending]

private theorem failedRules_lastProgress :
    (audit.catalogue.ids.filter fun id =>
        (audit.lastProgress formula provenance).failed.contains id) =
      (audit.catalogue.rules.filter fun rule =>
        !audit.leavesOut provenance rule &&
          audit.ruleFails formula provenance rule).map (·.id) := by
  rw [Catalogue.ids, List.filter_map]
  congr 1
  apply List.filter_congr
  intro rule member
  rw [Bool.eq_iff_iff]
  simpa using mem_failed_lastProgress formula provenance member

theorem run_eq_of_lastProgress :
    (audit.run formula provenance).1 = {
      path := provenance.path
      offenses := (arrange audit.catalogue (audit.lastProgress formula provenance)).map
        fun finding => offense formula finding.rule finding.draft
      failedRules := audit.catalogue.ids.filter fun id =>
        (audit.lastProgress formula provenance).failed.contains id } :=
  rfl

/-! ## Nothing is lost and nothing is added -/

/-- Parting a list by the keys of its elements only changes its order. -/
theorem perm_flatMap_filter {α : Type} (key : α → String) (values : List α) {keys : List String}
    (distinct : keys.Nodup) :
    (keys.flatMap fun wanted => values.filter fun value => key value = wanted).Perm
      (values.filter fun value => key value ∈ keys) := by
  induction keys with
  | nil => simp
  | cons wanted rest induction =>
      rw [List.nodup_cons] at distinct
      rw [List.flatMap_cons]
      have parted := List.filter_append_perm (fun value => decide (key value = wanted))
        (values.filter fun value => key value ∈ wanted :: rest)
      rw [List.filter_filter, List.filter_filter] at parted
      have front : (values.filter fun value =>
          decide (key value = wanted) && decide (key value ∈ wanted :: rest)) =
          values.filter fun value => decide (key value = wanted) := by
        apply List.filter_congr
        intro value _
        by_cases same : key value = wanted <;> simp [same]
      have back : (values.filter fun value =>
          !decide (key value = wanted) && decide (key value ∈ wanted :: rest)) =
          values.filter fun value => decide (key value ∈ rest) := by
        apply List.filter_congr
        intro value _
        by_cases same : key value = wanted
        · simp [same, distinct.1]
        · simp [same]
      rw [front, back] at parted
      exact ((induction distinct.2).append_left _).trans parted

theorem familyAccount_perm (family : String) :
    (audit.familyAccount formula provenance family).Perm
      (audit.familyFindings formula provenance family) := by
  rw [familyAccount]
  split <;> exact List.mergeSort_perm _ _

theorem flatMap_familyFindings_perm :
    (audit.catalogue.families.flatMap (audit.familyFindings formula provenance)).Perm
      (audit.catalogue.rules.zipIdx.flatMap fun entry =>
        (audit.ruleDrafts formula provenance entry.1).map fun draft =>
          ⟨entry.1, entry.2, draft⟩) := by
  have parted := perm_flatMap_filter (fun entry : Rule × Nat => entry.1.family)
    audit.catalogue.rules.zipIdx audit.catalogue.nodup_families
  have all : (audit.catalogue.rules.zipIdx.filter fun entry =>
      decide (entry.1.family ∈ audit.catalogue.families)) = audit.catalogue.rules.zipIdx := by
    rw [List.filter_eq_self]
    intro entry member
    have stands := List.mem_zipIdx_iff_getElem?.mp member
    exact decide_eq_true (audit.catalogue.mem_families (List.mem_of_getElem? stands))
  rw [all] at parted
  have found := parted.flatMap_right fun entry =>
    (audit.ruleDrafts formula provenance entry.1).map fun draft =>
      (⟨entry.1, entry.2, draft⟩ : Finding)
  rw [List.flatMap_assoc] at found
  exact found

theorem offenses_ruleByRule_perm :
    (audit.ruleByRule formula provenance).offenses.Perm
      (audit.catalogue.rules.flatMap fun rule =>
        (audit.ruleDrafts formula provenance rule).map (reported formula rule)) := by
  have sorted : (audit.catalogue.families.flatMap (audit.familyAccount formula provenance)).Perm
      (audit.catalogue.families.flatMap (audit.familyFindings formula provenance)) :=
    List.Perm.flatMap_left _ fun family _ => audit.familyAccount_perm formula provenance family
  have together := (sorted.trans (audit.flatMap_familyFindings_perm formula provenance)).map
    fun finding => reported formula finding.rule finding.draft
  have rules : audit.catalogue.rules = audit.catalogue.rules.zipIdx.map (·.1) :=
    (List.zipIdx_map_fst 0 _).symm
  rw [Catalogue.families_eq] at together
  conv_rhs => rw [rules, List.flatMap_map]
  simpa [ruleByRule, List.map_flatMap, Function.comp_def] using together

private theorem nodup_failedRules :
    (audit.ruleByRule formula provenance).failedRules.Nodup :=
  audit.catalogue.nodup_ids.sublist (List.filter_sublist.map _)

theorem fst_run : (audit.run formula provenance).1 = audit.ruleByRule formula provenance := by
  rw [run_eq_of_lastProgress, arrange_lastProgress, failedRules_lastProgress,
    Catalogue.families_eq]
  rfl

theorem mem_offenses_run_iff {found : Offense} :
    found ∈ (audit.run formula provenance).1.offenses ↔
      ∃ rule ∈ audit.catalogue.rules, ∃ draft ∈ audit.ruleDrafts formula provenance rule,
        offense formula rule draft = found := by
  rw [fst_run, (audit.offenses_ruleByRule_perm formula provenance).mem_iff]
  simp only [List.mem_flatMap, List.mem_map]
  rfl

/-- An audit reports what the account rule by rule says: no draft of a rule is lost, doubled, or
reported although the rule is left out or fails, and each rule that fails is named once. -/
theorem run_eq_ruleByRule :
    (audit.run formula provenance).1 = audit.ruleByRule formula provenance ∧
      (audit.run formula provenance).1.offenses.Perm
        (audit.catalogue.rules.flatMap fun rule =>
          (audit.ruleDrafts formula provenance rule).map (reported formula rule)) ∧
      (audit.run formula provenance).1.failedRules.Nodup := by
  rw [fst_run]
  exact ⟨rfl, audit.offenses_ruleByRule_perm formula provenance,
    audit.nodup_failedRules formula provenance⟩

end

end FormulaLint.Audit
