import FormulaLint.Report
import Mathlib.Data.List.Perm.Basic

/-! What the summary of a run says about its offenses. Counts are kept report by report and the exit
code is found from the offenses that are kept, by how much their severities weigh; the two agree
after any number of reports. -/

namespace FormulaLint

namespace Tally

theorem count_add (tally : Tally) (added severity : Severity) :
    (tally.add added).count severity =
      tally.count severity + if added = severity then 1 else 0 := by
  cases added <;> cases severity <;> rfl

theorem count_foldl_add (offenses : List Offense) (tally : Tally) (severity : Severity) :
    (offenses.foldl (fun tally offense => tally.add offense.severity) tally).count severity =
      tally.count severity + offenses.countP (·.severity = severity) := by
  induction offenses generalizing tally with
  | nil => rfl
  | cons offense rest induction =>
      rw [List.foldl_cons, induction, count_add, List.countP_cons]
      simp only [decide_eq_true_eq]
      omega

private theorem total_eq (tally : Tally) :
    tally.total = tally.fatal + tally.error + tally.warning + tally.convention := by
  simp only [total, rows, Severity.all, List.map_cons, List.map_nil, List.foldl_cons,
    List.foldl_nil, count, Nat.zero_add]

private theorem eq_of_count_eq {left right : Tally}
    (same : ∀ severity, left.count severity = right.count severity) : left = right := by
  rcases left with ⟨fatal, error, warning, convention⟩
  rcases right with ⟨otherFatal, otherError, otherWarning, otherConvention⟩
  rw [mk.injEq]
  exact ⟨same .fatal, same .error, same .warning, same .convention⟩

end Tally

theorem length_eq_countP_severities (offenses : List Offense) :
    offenses.length =
      offenses.countP (·.severity = .fatal) + offenses.countP (·.severity = .error) +
        offenses.countP (·.severity = .warning) + offenses.countP (·.severity = .convention) := by
  induction offenses with
  | nil => rfl
  | cons offense rest induction =>
      simp only [List.length_cons, List.countP_cons, decide_eq_true_eq]
      rw [induction]
      cases offense.severity <;> simp <;> omega

theorem Severity.error_weight_le_iff (severity : Severity) :
    error.weight ≤ severity.weight ↔ severity = error ∨ severity = fatal := by
  cases severity <;> decide

namespace RunReport

/-! ## Counts -/

def Counted (result : RunReport) : Prop :=
  ∀ severity, result.summary.count severity = result.offenses.countP (·.severity = severity)

variable {result : RunReport}

theorem offenses_add (result : RunReport) (report : FormulaReport) :
    (result.add report).offenses = result.offenses ++ report.offenses := by
  simp only [offenses, add, List.flatMap_append, List.flatMap_singleton]

theorem Counted.add (counted : result.Counted) (report : FormulaReport) :
    (result.add report).Counted := by
  intro severity
  rw [offenses_add, List.countP_append, ← counted severity]
  exact Tally.count_foldl_add report.offenses result.summary severity

theorem Counted.foldl (counted : result.Counted) (reports : List FormulaReport) :
    (reports.foldl RunReport.add result).Counted := by
  induction reports generalizing result with
  | nil => exact counted
  | cons report rest induction => exact induction (counted.add report)

theorem counted_ofReports (reports : List FormulaReport) : (ofReports reports).Counted :=
  Counted.foldl (fun severity => by cases severity <;> rfl) reports

theorem files_foldl_add (reports : List FormulaReport) (result : RunReport) :
    (reports.foldl add result).files = result.files ++ reports := by
  induction reports generalizing result with
  | nil => exact (List.append_nil _).symm
  | cons report rest induction =>
      rw [List.foldl_cons, induction, add, List.append_assoc, List.singleton_append]

theorem files_ofReports (reports : List FormulaReport) : (ofReports reports).files = reports :=
  files_foldl_add reports {}

theorem offenses_ofReports (reports : List FormulaReport) :
    (ofReports reports).offenses = reports.flatMap (·.offenses) := by
  rw [offenses, files_ofReports]

theorem Counted.total_eq (counted : result.Counted) :
    result.summary.total = result.offenses.length := by
  rw [Tally.total_eq, length_eq_countP_severities, ← counted, ← counted, ← counted, ← counted]
  rfl

/-! ## Exit codes -/

theorem exitCode_eq (result : RunReport) :
    result.exitCode =
      if result.offenses = [] then 0
      else if ∃ offense ∈ result.offenses,
        offense.severity = .error ∨ offense.severity = .fatal then 2 else 1 := by
  simp only [exitCode, List.isEmpty_iff, List.map_eq_nil_iff, List.any_map, List.any_eq_true,
    Function.comp_apply, decide_eq_true_eq, Severity.error_weight_le_iff]

theorem exitCode_eq_zero_iff : result.exitCode = 0 ↔ result.offenses = [] := by
  rw [exitCode_eq]
  split
  · next none => simp [none]
  · next some => split <;> simp [some]

theorem exitCode_eq_two_iff :
    result.exitCode = 2 ↔
      ∃ offense ∈ result.offenses, offense.severity = .error ∨ offense.severity = .fatal := by
  rw [exitCode_eq]
  split
  · next none => simp [none]
  · split
    · next grave => simp only [grave]
    · next grave => simp [grave]

theorem exitCode_eq_of_perm {other : RunReport} (same : result.offenses.Perm other.offenses) :
    result.exitCode = other.exitCode := by
  have empty : result.offenses = [] ↔ other.offenses = [] := by
    rw [← List.length_eq_zero_iff, same.length_eq, List.length_eq_zero_iff]
  rw [exitCode_eq, exitCode_eq]
  simp only [empty, same.mem_iff]

theorem Counted.exitCode_eq_two_iff (counted : result.Counted) :
    result.exitCode = 2 ↔ 0 < result.summary.error ∨ 0 < result.summary.fatal := by
  have error : result.summary.error = result.offenses.countP (·.severity = .error) :=
    counted .error
  have fatal : result.summary.fatal = result.offenses.countP (·.severity = .fatal) :=
    counted .fatal
  rw [RunReport.exitCode_eq_two_iff, error, fatal, List.countP_pos_iff, List.countP_pos_iff]
  simp only [decide_eq_true_eq, and_or_left, exists_or]

/-! ## Runs -/

/-- After any reports the summary counts their offenses, the run passes just if there are none, which
the exit code tells as zero, and the exit code is two just if an error or worse has been counted and
one otherwise. The order of the reports does not matter. -/
theorem ofReports_tells (reports : List FormulaReport) :
    let result := ofReports reports
    let offenses := reports.flatMap (·.offenses)
    (∀ severity, result.summary.count severity = offenses.countP (·.severity = severity)) ∧
      result.summary.total = offenses.length ∧
      (result.passed = true ↔ result.summary.total = 0) ∧
      (result.summary.total = 0 ↔ result.exitCode = 0) ∧
      (result.exitCode = 2 ↔ 0 < result.summary.error ∨ 0 < result.summary.fatal) ∧
      (result.exitCode = 1 ↔ result.exitCode ≠ 0 ∧ result.exitCode ≠ 2) ∧
      ∀ others, reports.Perm others →
        (ofReports others).summary = result.summary ∧
          (ofReports others).exitCode = result.exitCode := by
  intro result offenses
  have kept : result.offenses = offenses := offenses_ofReports reports
  have counted : result.Counted := counted_ofReports reports
  have total : result.summary.total = offenses.length := by
    rw [counted.total_eq, kept]
  refine ⟨kept ▸ counted, total, decide_eq_true_iff, ?_, counted.exitCode_eq_two_iff, ?_, ?_⟩
  · rw [total, List.length_eq_zero_iff, exitCode_eq_zero_iff, kept]
  · rw [exitCode_eq]
    split
    · simp
    · split <;> simp
  · intro others same
    have sameOffenses : (ofReports others).offenses.Perm result.offenses := by
      rw [offenses_ofReports, kept]
      exact (same.flatMap_right _).symm
    refine ⟨Tally.eq_of_count_eq fun severity => ?_, exitCode_eq_of_perm sameOffenses⟩
    rw [counted_ofReports others severity, counted severity, sameOffenses.countP_eq]

end RunReport

end FormulaLint
