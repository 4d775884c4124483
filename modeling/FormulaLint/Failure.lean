import FormulaLint.Catalogue
import FormulaLint.Configuration.Fault
import FormulaLint.Disk
import FormulaLint.Text.Encoding

/-! Why a run cannot be carried through. -/

namespace FormulaLint

inductive Failure where
  | catalogue (fault : CatalogueFault)
  | configuration (fault : ConfigFault)
  | formulaNotText (path : String) (fault : Text.DecodeFault)
  | sourceNotText (fault : Text.EncodeFault)
  | documentNotText
  | documentInterrupted
  | offsetOutside
  | replacementNotText
  | disk (fault : DiskFault)
  deriving Repr

/-- What is reported about a failure that ends a run in good order; any other breaks it off. -/
def Failure.message? : Failure → Option String
  | .catalogue fault => some fault.message
  | .configuration fault => if fault.isReported then some fault.message else none
  | .formulaNotText path fault => some (path ++ " is not valid UTF-8: " ++ fault.message)
  | .sourceNotText fault => some ("Formula source is not valid text: " ++ fault.message)
  | _ => none

end FormulaLint
