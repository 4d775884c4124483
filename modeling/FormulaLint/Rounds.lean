import FormulaLint.Audit
import FormulaLint.Correction
import FormulaLint.Languages

/-! Correction in rounds: a corrected text is audited and corrected again. A fix may uncover another
offense, so one round need not be enough. -/

namespace FormulaLint

/-- What one round finds, how many fixes it makes, and the text after it. -/
structure Round where
  offenses : List Offense
  count : Nat
  text : String
  deriving Repr

namespace Audit

def round (audit : Audit) (languages : Languages) (path : Option String) (source : String) :
    Except Failure Round := do
  let formula ← languages.parse source
  let plan := Correction.ofOffenses (audit.examine formula path).1.offenses
  match plan.splice? source with
  | some text => return ⟨plan.offenses, plan.count, text⟩
  | none => throw .replacementNotText

/-- At most the given number of rounds; a round that makes no fix is the last one. -/
def rounds (audit : Audit) (languages : Languages) (path : Option String) :
    (limit : Nat) → (source : String) → Except Failure (List Round)
  | 0, _ => return []
  | limit + 1, source => do
      let round ← audit.round languages path source
      if round.count = 0 then return [round]
      else return round :: (← rounds audit languages path limit round.text)

end Audit

end FormulaLint
