/-! Notices: what a run has to say beside its report. -/

namespace FormulaLint

inductive NoticeLevel where
  | debug
  | info
  | warning
  | error
  deriving DecidableEq, Repr

namespace NoticeLevel

def name : NoticeLevel → String
  | .debug => "DEBUG"
  | .info => "INFO"
  | .warning => "WARNING"
  | .error => "ERROR"

def rank : NoticeLevel → Nat
  | .debug => 0
  | .info => 1
  | .warning => 2
  | .error => 3

end NoticeLevel

inductive Notice where
  | syntaxErrors
  | unknownEntry (shown : String)
  | emptyConfiguration (path : String)
  | mergingConfiguration (path : String)
  | droppedFix (rule : String) (line : Int)
  | failedRule (rule : String) (path : Option String) (line : Nat)
  | corrected (count : Nat) (path : String)
  deriving DecidableEq, Repr

/-- How a formula is named; one without a path is source text. -/
def shownPath : Option String → String
  | none => "<source>"
  | some path => if path.isEmpty then "<source>" else path

namespace Notice

def level : Notice → NoticeLevel
  | .syntaxErrors => .warning
  | .unknownEntry _ => .debug
  | .emptyConfiguration _ => .warning
  | .mergingConfiguration _ => .debug
  | .droppedFix _ _ => .debug
  | .failedRule _ _ _ => .error
  | .corrected _ _ => .info

def channel : Notice → String
  | .syntaxErrors => "formula_audit.syntax"
  | .unknownEntry _ => "formula_audit.exemptions"
  | .emptyConfiguration _ => "formula_audit.config"
  | .mergingConfiguration _ => "formula_audit.config"
  | .droppedFix _ _ => "formula_audit.autocorrect"
  | .failedRule _ _ _ => "formula_audit.engine"
  | .corrected _ _ => "formula_audit.cli"

def message : Notice → String
  | .syntaxErrors => "Syntax errors in formula source; analysis may be incomplete"
  | .unknownEntry shown => "Exemption entry " ++ shown ++ " matches no known rule"
  | .emptyConfiguration path => "Configuration file " ++ path ++ " is missing or empty"
  | .mergingConfiguration path => "Merging configuration from " ++ path
  | .droppedFix rule line =>
      "Dropping fix for " ++ rule ++ " at line " ++ toString line ++ ": overlaps an earlier fix"
  | .failedRule rule path line =>
      "Rule " ++ rule ++ " failed on " ++ shownPath path ++ " line " ++ toString line ++
        "; skipping it for this file"
  | .corrected count path => "Applied " ++ toString count ++ " corrections to " ++ path

def text (notice : Notice) : String :=
  notice.level.name ++ " " ++ notice.channel ++ ": " ++ notice.message

end Notice

end FormulaLint
