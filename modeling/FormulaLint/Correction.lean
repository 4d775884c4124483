import FormulaLint.Notice
import FormulaLint.Offense
import FormulaLint.StableSort
import FormulaLint.Text.Slice

/-! Correction of one text: fixes are chosen in source order so that no two overlap, and put into
the text. -/

namespace FormulaLint

/-! ## Choosing fixes -/

/-- The fix of an offense and the offense's position in the report. -/
structure Candidate where
  position : Nat
  offense : Offense
  fix : Fix

namespace Candidate

def notAfter (left right : Candidate) : Bool :=
  if left.fix.start ≠ right.fix.start then left.fix.start < right.fix.start
  else left.fix.stop ≤ right.fix.stop

def ofOffenses (offenses : List Offense) : List Candidate :=
  offenses.zipIdx.filterMap fun entry => entry.1.fix.map fun fix => ⟨entry.2, entry.1, fix⟩

def inSourceOrder (offenses : List Offense) : List Candidate :=
  stableSort notAfter (ofOffenses offenses)

def choose (accepted : List Candidate) : List Candidate → List Candidate
  | [] => accepted
  | candidate :: rest =>
      if accepted.any fun other => candidate.fix.overlaps other.fix then choose accepted rest
      else choose (accepted ++ [candidate]) rest

end Candidate

/-- The accepted fixes in source order, and the offenses as they stand after the choice: an accepted
one is corrected, any other has no fix any more. -/
structure Correction where
  fixes : List Fix
  offenses : List Offense
  deriving Repr

namespace Correction

def settle (accepted : List Candidate) (entry : Offense × Nat) : Offense :=
  if accepted.any fun candidate => candidate.position = entry.2 then
    { entry.1 with corrected := true }
  else
    { entry.1 with fix := none }

def accepted (offenses : List Offense) : List Candidate :=
  Candidate.choose [] (Candidate.inSourceOrder offenses)

def ofOffenses (offenses : List Offense) : Correction where
  fixes := (accepted offenses).map (·.fix)
  offenses := offenses.zipIdx.map (settle (accepted offenses))

def notices (offenses : List Offense) : List Notice :=
  let accepted := accepted offenses
  let dropped := (Candidate.inSourceOrder offenses).filter fun candidate =>
    !accepted.any fun other => other.position = candidate.position
  dropped.map fun candidate => .droppedFix candidate.offense.rule candidate.offense.line

def count (plan : Correction) : Nat :=
  plan.fixes.length

end Correction

/-! ## Putting fixes into a text -/

namespace Fix

def notBefore (left right : Fix) : Bool :=
  if left.start ≠ right.start then right.start < left.start else right.stop ≤ left.stop

/-- Put one replacement in its place. Only a text can be put into a text. -/
def splice? (fix : Fix) (text : String) : Option String :=
  fix.replacement.text?.map fun replacement =>
    Text.slice text 0 fix.start ++ replacement ++ Text.slice text fix.stop text.length

def spliceAll? (text : String) : List Fix → Option String
  | [] => some text
  | fix :: rest => (fix.splice? text).bind fun changed => spliceAll? changed rest

end Fix

/-- The text with every accepted fix put in, the last one first; none if some replacement is no
text. -/
def Correction.splice? (plan : Correction) (text : String) : Option String :=
  Fix.spliceAll? text (stableSort Fix.notBefore plan.fixes)

end FormulaLint
