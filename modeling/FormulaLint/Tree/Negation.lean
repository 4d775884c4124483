import FormulaLint.Tree.Node

/-! Negations and the parentheses around what they negate. -/

namespace FormulaLint.Node

def onlyNamed? (node : Node) : Option Node :=
  match node.namedChildren with
  | [only] => some only
  | _ => none

def isParentheses (node : Node) : Bool :=
  node.label == "parenthesized_statements"

mutual

/-- What is left of an operand without parentheses around a single statement. -/
def unwrapped : Node → Node
  | ⟨label, named, field, extent, text, children⟩ =>
      let node : Node := ⟨label, named, field, extent, text, children⟩
      if node.isParentheses && node.onlyNamed?.isSome then unwrappedNamed node children else node

def unwrappedNamed (outer : Node) : List Node → Node
  | [] => outer
  | child :: rest => if child.named then child.unwrapped else unwrappedNamed outer rest

end

/-- What a negation negates; none for every other node. -/
def negated? (node : Node) : Option Node :=
  if node.label ≠ "unary" then none
  else
    match node.child? "operator" with
    | some operator =>
        if operator.text = "!" || operator.text = "not" then (node.child? "operand").map unwrapped
        else none
    | none => none

end FormulaLint.Node
