import FormulaLint.Offense
import FormulaLint.Text.Blank
import FormulaLint.Text.Lines
import FormulaLint.Text.Slice
import FormulaLint.Tree.Walk

/-! Statements, the places around them, and fixes that replace or delete them. -/

namespace FormulaLint

namespace Site

def isInClass (site : Site) : Bool :=
  site.ancestors.any fun ancestor => ancestor.kind = .classDefinition

end Site

namespace Node

def replacedBy (node : Node) (text : String) : Fix :=
  .write node.start node.stop text

/-- Delete a statement, with the whole of its lines where nothing else stands on them. -/
def deletion (source : String) (node : Node) : Fix :=
  let chars := source.toList
  let lineStart := Text.lineStart chars node.start
  let lineEnd := Text.lineEnd chars node.stop
  let before := Text.segment chars lineStart node.start
  let after := Text.segment chars node.stop lineEnd
  if Text.isBlankText before && Text.isBlankText after then .write lineStart lineEnd ""
  else .write node.start node.stop ""

end Node

end FormulaLint
