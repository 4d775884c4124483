import FormulaLint.Value

/-! What a table supplies as a message or a replacement: a text, or a list that is taken as it
stands. -/

namespace FormulaLint

inductive Phrase where
  | text (value : String)
  | items (values : List Value)
  deriving Repr

namespace Phrase

def ofValue? : Value → Option Phrase
  | .scalar (.text value) => some (.text value)
  | .list values => some (.items values)
  | _ => none

def toValue : Phrase → Value
  | .text value => .text value
  | .items values => .list values

def display (phrase : Phrase) : String :=
  phrase.toValue.display

def text? : Phrase → Option String
  | .text value => some value
  | .items _ => none

theorem ofValue_toValue (phrase : Phrase) : ofValue? phrase.toValue = some phrase := by
  cases phrase <;> rfl

end Phrase

end FormulaLint
