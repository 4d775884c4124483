import FormulaLint.Formula

/-! Where a formula comes from: what exemptions ask about. -/

namespace FormulaLint

structure Provenance where
  path : Option String
  className : Option String
  deriving DecidableEq, Repr

def Formula.provenance (formula : Formula) (path : Option String) : Provenance :=
  ⟨path, formula.className?⟩

end FormulaLint
