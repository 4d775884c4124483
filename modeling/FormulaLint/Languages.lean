import FormulaLint.Failure
import FormulaLint.Formula

/-! The languages that a run has to read: that of formulas and that of configuration documents.
Their grammars are not described here; a run is given them as functions. -/

namespace FormulaLint

/-- Why a text has no value: it breaks the grammar of documents, or something else has stopped the
reading of it, such as a date that no calendar has or nesting that is too deep. -/
inductive DocumentFault where
  | invalid (reason : String)
  | interrupted
  deriving DecidableEq, Repr

/-- How texts are read. Every text has a concrete tree, if need be one with errors. -/
structure Languages where
  grammar : String → ConcreteTree
  document : String → Except DocumentFault Value

namespace Languages

def parse (languages : Languages) (source : String) : Except Failure Formula :=
  match Formula.ofConcrete? source (languages.grammar source) with
  | some formula => .ok formula
  | none => .error .offsetOutside

def parseCodePoints (languages : Languages) (codes : List Nat) : Except Failure Formula :=
  match Text.ofCodePoints codes with
  | .ok source => languages.parse source
  | .error fault => .error (.sourceNotText fault)

end Languages

end FormulaLint
