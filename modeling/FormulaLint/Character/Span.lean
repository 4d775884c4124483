/-! Character properties are given as sorted spans of code points. -/

namespace FormulaLint.Character

abbrev Span := Nat × Nat

def within (spans : List Span) (code : Nat) : Bool :=
  spans.any fun span => span.1 ≤ code && code ≤ span.2

end FormulaLint.Character
