import FormulaLint.Tree.Concrete

/-! Formulas as they are audited: source text and syntax tree. -/

namespace FormulaLint

/-- A formula that has been read: its text, its tree, and whether the grammar found an error in it.
-/
structure Formula where
  source : String
  root : Node
  hasError : Bool
  deriving Repr

namespace Formula

def ofConcrete? (source : String) (concrete : ConcreteTree) : Option Formula := do
  let nodes ← concrete.root.link? source none 0
  let root ← LinkedNode.tree? nodes.toArray nodes.length 0
  return ⟨source, root, concrete.hasError⟩

def walk (formula : Formula) : List Site :=
  formula.root.walk

def lines (formula : Formula) : List String :=
  Text.lines formula.source

/-- The text of a line counted from one, and the empty text where there is no such line. -/
def shownLine (formula : Formula) (line : Int) : String :=
  if line < 1 then "" else (formula.lines[line.toNat - 1]?).getD ""

def className? (formula : Formula) : Option String := do
  let site ← formula.walk.find? fun site => site.node.kind = .classDefinition
  let name ← site.node.child? "name"
  return name.text

end Formula

end FormulaLint
