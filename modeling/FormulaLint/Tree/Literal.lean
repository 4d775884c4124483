import FormulaLint.Text.Slice
import FormulaLint.Tree.Node

/-! String and symbol literals: what they say and where their content stands. -/

namespace FormulaLint.Node

/-- Where the content of a string literal stands: between its first and its last child, or inside a
single quote at either end. -/
def contentBounds (node : Node) : Int × Int :=
  match node.children with
  | opening :: second :: rest =>
      (opening.stop, ((second :: rest).getLast (by simp)).start)
  | _ => (node.start + 1, node.stop - 1)

/-- The content of a string literal; none for one with interpolations, and for any other node. -/
def stringContent? (node : Node) : Option String :=
  if node.label ≠ "string" || node.children.any fun child => child.label == "interpolation" then
    none
  else
    match node.children with
    | opening :: second :: rest =>
        let closing := (second :: rest).getLast (by simp)
        some (Text.slice node.text (opening.stop - node.start) (closing.start - node.start))
    | _ => some (Text.slice node.text 1 (-1))

def symbolText? (node : Node) : Option String :=
  if node.label = "simple_symbol" || node.label = "symbol" then
    some (Text.slice node.text 1 node.text.length)
  else
    none

def carriedName? (node : Node) : Option String :=
  match node.stringContent? with
  | some value => some value
  | none => node.symbolText?

/-- The column of a character of a literal's content, the quote in front of it being one column
wide. -/
def columnInLiteral (node : Node) (offset : Nat) : Nat :=
  node.column + 1 + offset

def opensWithDoubleQuote (node : Node) : Bool :=
  node.label == "string" && node.text.toList.head? == some '\x22'

end FormulaLint.Node
