/-! Kinds of syntax nodes: the coarse categories that rules ask for. -/

namespace FormulaLint

inductive SyntaxKind where
  | program
  | classDefinition
  | methodDefinition
  | methodCall
  | literal
  | conditional
  | block
  | comment
  | constantReference
  | identifier
  | operator
  | assignment
  | elementReference
  | arguments
  | pair
  | interpolation
  | other
  deriving DecidableEq, Repr

namespace SyntaxKind

def all : List SyntaxKind :=
  [.program, .classDefinition, .methodDefinition, .methodCall, .literal, .conditional, .block,
    .comment, .constantReference, .identifier, .operator, .assignment, .elementReference,
    .arguments, .pair, .interpolation, .other]

def name : SyntaxKind → String
  | .program => "program"
  | .classDefinition => "class-definition"
  | .methodDefinition => "method-definition"
  | .methodCall => "method-call"
  | .literal => "literal"
  | .conditional => "conditional"
  | .block => "block"
  | .comment => "comment"
  | .constantReference => "constant-reference"
  | .identifier => "identifier"
  | .operator => "operator"
  | .assignment => "assignment"
  | .elementReference => "element-reference"
  | .arguments => "arguments"
  | .pair => "pair"
  | .interpolation => "interpolation"
  | .other => "other"

/-- The labels that the grammar gives to named nodes of each kind. -/
def labels : SyntaxKind → List String
  | .program => ["program"]
  | .classDefinition => ["class"]
  | .methodDefinition => ["method", "singleton_method"]
  | .methodCall => ["call"]
  | .literal =>
      ["string", "simple_symbol", "delimited_symbol", "integer", "float", "true", "false", "nil",
        "array", "hash"]
  | .conditional => ["if", "unless", "elsif", "if_modifier", "unless_modifier", "conditional"]
  | .block => ["do_block", "block"]
  | .comment => ["comment"]
  | .constantReference => ["constant", "scope_resolution"]
  | .identifier => ["identifier"]
  | .operator => ["unary", "binary"]
  | .assignment => ["assignment", "operator_assignment"]
  | .elementReference => ["element_reference"]
  | .arguments => ["argument_list", "block_parameters", "method_parameters"]
  | .pair => ["pair"]
  | .interpolation => ["interpolation"]
  | .other => []

def ofLabel (label : String) : SyntaxKind :=
  (all.find? fun kind => kind.labels.contains label).getD .other

def ofName? (name : String) : Option SyntaxKind :=
  all.find? fun kind => kind.name == name

end SyntaxKind

end FormulaLint
