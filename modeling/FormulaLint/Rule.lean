import FormulaLint.Provenance
import FormulaLint.Offense
import FormulaLint.Tables

/-! Rules: what looks at nodes and drafts offenses. -/

namespace FormulaLint

inductive ReportOrder where
  | ascending
  | descending
  deriving DecidableEq, Repr

namespace ReportOrder

def name : ReportOrder → String
  | .ascending => "ascending"
  | .descending => "descending"

def ofName? : String → Option ReportOrder
  | "ascending" => some .ascending
  | "descending" => some .descending
  | _ => none

end ReportOrder

/-- What a rule may consult beside the node it looks at. -/
structure Surroundings where
  formula : Formula
  provenance : Provenance
  tables : Tables

def Surroundings.source (context : Surroundings) : String :=
  context.formula.source

/-- A rule looks at the nodes of some kinds. Its inspection yields drafts, or nothing if it fails.
-/
structure Rule where
  id : String
  family : String
  title : String
  kinds : List SyntaxKind
  severity : Severity
  correctable : Bool
  order : ReportOrder
  detect : Surroundings → Site → Option (List Draft)

namespace Rule

def shown (rule : Rule) : String :=
  "<" ++ rule.title ++ " " ++ rule.id ++ ">"

/-- A rule that never fails: a convention that is reported in ascending order and offers no fix. -/
def convention (family name : String) (kinds : List SyntaxKind)
    (inspect : Surroundings → Site → List Draft) : Rule where
  id := family ++ "/" ++ name
  family := family
  title := name ++ "Rule"
  kinds := kinds
  severity := .convention
  correctable := false
  order := .ascending
  detect := fun context site => some ((inspect context site).map (·.permit false))

def correcting (family name : String) (kinds : List SyntaxKind)
    (inspect : Surroundings → Site → List Draft) : Rule where
  id := family ++ "/" ++ name
  family := family
  title := name ++ "Rule"
  kinds := kinds
  severity := .convention
  correctable := true
  order := .ascending
  detect := fun context site => some ((inspect context site).map (·.permit true))

end Rule

/-! ## Drafts at a place -/

namespace Node

def report (node : Node) (message : String) (fix : Option Fix) : Draft :=
  ⟨.text message, node.line, node.column, fix⟩

def reportAt (node : Node) (column : Nat) (message : String) (fix : Option Fix) : Draft :=
  ⟨.text message, node.line, column, fix⟩

end Node

end FormulaLint
