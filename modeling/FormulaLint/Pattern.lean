import FormulaLint.Pattern.Matching
import FormulaLint.Pattern.Reading

/-! Patterns as users write them: a text, the expression it stands for, and the names of its groups.
-/

namespace FormulaLint

structure Pattern where
  text : String
  expression : Pattern.Expression
  names : List (String × Nat)
  deriving DecidableEq, Repr

namespace Pattern

/-- Read a pattern, or say what is wrong with it. -/
def ofText (text : String) : Except Fault Pattern :=
  match readPattern.run ⟨Token.ofChars text.toList, 0, 0, [], [], {}⟩ with
  | .ok (expression, reader) => .ok ⟨text, expression, reader.names⟩
  | .error fault => .error fault

def search (pattern : Pattern) (text : String) : Option Match :=
  pattern.expression.search text

def matchesWhole (pattern : Pattern) (text : String) : Bool :=
  pattern.expression.matchesWhole text

def named (pattern : Pattern) (found : Match) (name : String) : Option String :=
  (pattern.names.lookup name).bind found.group?

end Pattern

end FormulaLint
