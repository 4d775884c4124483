import FormulaLint.Audit
import FormulaLint.Correction
import FormulaLint.Disk.Discovery
import FormulaLint.Languages
import FormulaLint.Report

/-! Visits: formulas on the disk are read and audited one after another, and corrected if that is
wanted. A failure ends the run, but what earlier visits have written stays. -/

namespace FormulaLint

structure Outcome (α : Type) where
  result : Except Failure α
  notices : List Notice
  disk : Disk

/-- The text of a formula, with one kind of line end; a missing one is empty. -/
def Disk.readFormula (disk : Disk) (path : Path) : Except Failure String :=
  match disk.read path with
  | .error fault => .error (.disk fault)
  | .ok none => .ok ""
  | .ok (some bytes) =>
      match Text.decode bytes with
      | .ok text => .ok (String.ofList (Text.unifyLineEnds text.toList))
      | .error fault => .error (.formulaNotText path.text fault)

/-- Correct a formula whose text has just been read: it is written if there is anything to correct.
-/
def FormulaReport.correct (report : FormulaReport) (source : String) (path : Path) (disk : Disk) :
    Outcome FormulaReport :=
  let plan := Correction.ofOffenses report.offenses
  let dropped := Correction.notices report.offenses
  let settled := { report with offenses := plan.offenses }
  if plan.fixes.isEmpty then ⟨.ok settled, dropped, disk⟩
  else
    match plan.splice? source with
    | none => ⟨.error .replacementNotText, dropped, disk⟩
    | some text =>
        match disk.write path text.toUTF8 with
        | .error fault => ⟨.error (.disk fault), dropped, disk⟩
        | .ok written => ⟨.ok settled, dropped ++ [.corrected plan.count path.text], written⟩

namespace Audit

def examineFile (audit : Audit) (languages : Languages) (correcting : Bool) (path : Path)
    (disk : Disk) : Outcome FormulaReport :=
  match disk.readFormula path with
  | .error failure => ⟨.error failure, [], disk⟩
  | .ok source =>
      match languages.parse source with
      | .error failure => ⟨.error failure, [], disk⟩
      | .ok formula =>
          let (report, noticed) := audit.examine formula (some path.text)
          let corrected :=
            if correcting then report.correct source path disk else ⟨.ok report, [], disk⟩
          { corrected with notices := formula.notices ++ noticed ++ corrected.notices }

def examineFiles (audit : Audit) (languages : Languages) (correcting : Bool) :
    List Path → RunReport → Disk → Outcome RunReport
  | [], result, disk => ⟨.ok result, [], disk⟩
  | path :: rest, result, disk =>
      match audit.examineFile languages correcting path disk with
      | ⟨.error failure, noticed, left⟩ => ⟨.error failure, noticed, left⟩
      | ⟨.ok report, noticed, left⟩ =>
          let later := examineFiles audit languages correcting rest (result.add report) left
          { later with notices := noticed ++ later.notices }

def examineRoots (audit : Audit) (languages : Languages) (correcting : Bool) (roots : List Path)
    (disk : Disk) : Outcome RunReport :=
  audit.examineFiles languages correcting (disk.formulas formulaSuffixes roots) {} disk

end Audit

end FormulaLint
