import FormulaLint.CommandLine.Options
import FormulaLint.Configuration.Layers
import FormulaLint.Report.Document
import FormulaLint.Report.Table
import FormulaLint.Rules.BuiltIn
import FormulaLint.Visit

/-! Sessions: one use of the program, from its arguments to its exit code. -/

namespace FormulaLint.CommandLine

/-- What a session leaves behind: the exit code, or the failure that broke it off; what it printed;
and the disk. -/
structure Session where
  exit : Except Failure Nat
  output : String
  errors : String
  disk : Disk

def refusal : Nat := 2

/-- Notices as lines. Only those from warnings on are shown unless all are wanted. -/
def logged (verbose : Bool) (notices : List Notice) : String :=
  let shown := notices.filter fun notice => verbose || NoticeLevel.warning.rank ≤ notice.level.rank
  String.join (shown.map fun notice => notice.text ++ "\n")

def failureReport (message : String) : String :=
  "formula-audit: " ++ message ++ "\n"

def defaultRoots : List String := ["Formula"]

def Options.roots (options : Options) : List Path :=
  (if options.paths.isEmpty then defaultRoots else options.paths).map Path.ofText

/-! ## The audit -/

def Options.audit (options : Options) (languages : Languages) (disk : Disk) :
    Outcome RunReport :=
  match Catalogue.builtIn.ofFamilies options.families with
  | .error fault => ⟨.error (.catalogue fault), [], disk⟩
  | .ok catalogue =>
      match Configuration.load languages disk (options.configurations.map Path.ofText) with
      | (.error failure, noticed) => ⟨.error failure, noticed, disk⟩
      | (.ok configuration, noticed) =>
          let audit : Audit := ⟨catalogue, configuration⟩
          let outcome := audit.examineRoots languages options.autocorrect options.roots disk
          { outcome with notices := noticed ++ audit.notices ++ outcome.notices }

/-! ## The report -/

def writeReport (report : String) (path : Path) (disk : Disk) : Disk × Option DiskFault :=
  match disk.makeFolders path.parent with
  | (prepared, none) =>
      match prepared.write path report.toUTF8 with
      | .ok written => (written, none)
      | .error fault => (prepared, some fault)
  | stopped => stopped

/-- Print the report for people if it is wanted, and put the one for programs into the file that is
named, or print it if it is wanted and no file is named. -/
def Options.deliver (options : Options) (result : RunReport) (errors : String) (disk : Disk) :
    Session :=
  let document := result.toJson.render
  let table := if options.format = .text then result.table shownOffenses ++ "\n" else ""
  match options.output.filter (· ≠ "") with
  | some target =>
      match writeReport document (Path.ofText target) disk with
      | (left, some fault) => ⟨.error (.disk fault), table, errors, left⟩
      | (left, none) =>
          ⟨.ok result.exitCode, table ++ "\nReport written to " ++ target ++ "\n", errors, left⟩
  | none =>
      let printed := if options.format = .json then document ++ "\n" else ""
      ⟨.ok result.exitCode, table ++ printed, errors, disk⟩

/-! ## The session -/

def Options.session (options : Options) (languages : Languages) (disk : Disk) : Session :=
  let outcome := options.audit languages disk
  let log := logged options.verbose outcome.notices
  match outcome.result with
  | .ok result => options.deliver result log outcome.disk
  | .error failure =>
      match failure.message? with
      | some message => ⟨.ok refusal, "", log ++ failureReport message, outcome.disk⟩
      | none => ⟨.error failure, "", log, outcome.disk⟩

def session (languages : Languages) (arguments : List String) (disk : Disk) : Session :=
  match Options.ofArguments arguments with
  | .error .help => ⟨.ok 0, help, "", disk⟩
  | .error (.fault fault) => ⟨.ok refusal, "", fault.report, disk⟩
  | .ok options => options.session languages disk

end FormulaLint.CommandLine
