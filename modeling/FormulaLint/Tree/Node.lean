import FormulaLint.Tree.Kind

/-! Nodes of the syntax tree of a formula. -/

namespace FormulaLint

/-- Where a node stands: lines counted from one, columns and character offsets from zero. -/
structure Extent where
  startLine : Nat
  startColumn : Nat
  endLine : Nat
  endColumn : Nat
  start : Nat
  stop : Nat
  deriving DecidableEq, Repr

/-- A node with the label that the grammar gives it, its place, its text, and its children in source
order. Named nodes carry meaning; the others are tokens such as parentheses. A child may fill a
field of its parent. -/
structure Node where
  label : String
  named : Bool
  field : Option String
  extent : Extent
  text : String
  children : List Node
  deriving Repr

namespace Node

def line (node : Node) : Nat := node.extent.startLine

def column (node : Node) : Nat := node.extent.startColumn

def start (node : Node) : Nat := node.extent.start

def stop (node : Node) : Nat := node.extent.stop

/-- Only named nodes have a kind of their own. -/
def kind (node : Node) : SyntaxKind :=
  if node.named then SyntaxKind.ofLabel node.label else .other

def namedChildren (node : Node) : List Node :=
  node.children.filter (·.named)

def child? (node : Node) (field : String) : Option Node :=
  node.children.find? fun child => child.field == some field

def firstLabelled? (node : Node) (labels : List String) : Option Node :=
  node.children.find? fun child => labels.contains child.label

mutual

def size : Node → Nat
  | ⟨_, _, _, _, _, children⟩ => sizes children + 1

def sizes : List Node → Nat
  | [] => 0
  | node :: rest => node.size + sizes rest

end

end Node

end FormulaLint
