import FormulaLint.Audit
import FormulaLint.Json

/-! The report of a whole run: the reports of all files and a count of their offenses by severity.
-/

namespace FormulaLint

/-! ## Counts -/

structure Tally where
  fatal : Nat := 0
  error : Nat := 0
  warning : Nat := 0
  convention : Nat := 0
  deriving DecidableEq, Repr

namespace Tally

def count (tally : Tally) : Severity → Nat
  | .fatal => tally.fatal
  | .error => tally.error
  | .warning => tally.warning
  | .convention => tally.convention

def add (tally : Tally) : Severity → Tally
  | .fatal => { tally with fatal := tally.fatal + 1 }
  | .error => { tally with error := tally.error + 1 }
  | .warning => { tally with warning := tally.warning + 1 }
  | .convention => { tally with convention := tally.convention + 1 }

def rows (tally : Tally) : List (Severity × Nat) :=
  Severity.all.map fun severity => (severity, tally.count severity)

def total (tally : Tally) : Nat :=
  tally.rows.foldl (fun total row => total + row.2) 0

end Tally

/-! ## Runs -/

structure RunReport where
  summary : Tally := {}
  files : List FormulaReport := []
  deriving Repr

namespace RunReport

def add (result : RunReport) (report : FormulaReport) : RunReport where
  summary := report.offenses.foldl (fun tally offense => tally.add offense.severity) result.summary
  files := result.files ++ [report]

def ofReports (reports : List FormulaReport) : RunReport :=
  reports.foldl add {}

def offenses (result : RunReport) : List Offense :=
  result.files.flatMap (·.offenses)

def passed (result : RunReport) : Bool :=
  result.summary.total = 0

/-- Nothing for a run without offenses, two for one with an offense that is an error or worse, one
otherwise. -/
def exitCode (result : RunReport) : Nat :=
  let priorities := result.offenses.map (·.severity.weight)
  if priorities.isEmpty then 0
  else if priorities.any (Severity.error.weight ≤ ·) then 2 else 1

end RunReport

end FormulaLint
