import FormulaLint.Rule
import FormulaLint.Tree.Call
import FormulaLint.Tree.Negation
import FormulaLint.Tree.Statement

/-! Rules about assertions in tests. -/

namespace FormulaLint.Rules

def asserted? (node : Node) : Option Node :=
  if node.calls ["assert"] .nothing then node.firstArgument? else none

def assertInclude : Rule :=
  .convention "AssertStatements" "AssertInclude" [.methodCall] fun _ site =>
    match asserted? site.node with
    | none => []
    | some argument =>
        if argument.calls ["include?"] .anything && argument.receiver?.isSome then
          [argument.report "Use `assert_match` instead of `assert ...include?`" none]
        else
          []

def filePredicates : List String := ["exist?", "executable?"]

/-- An assertion about a file is spelled with the predicate as an argument; a negated one refutes
it. Only what is asked of a path, and not of the file class, can be respelled. -/
def assertPredicate : Rule :=
  .correcting "AssertStatements" "AssertPredicate" [.methodCall] fun _ site =>
    match asserted? site.node with
    | none => []
    | some argument =>
        let negated := argument.negated?
        let query := negated.getD argument
        if query.calls filePredicates .anything then
          match query.receiver?, query.method? with
          | some receiver, some predicate =>
              let assertion := if negated.isSome then "refute_predicate" else "assert_predicate"
              let message := "Use `" ++ assertion ++ " <path_to_file>, :" ++ predicate ++
                "` instead of `" ++ site.node.text ++ "`"
              let path :=
                if receiver.isParentheses then receiver.onlyNamed?.getD receiver else receiver
              let fix :=
                if receiver.text = "File" then none
                else
                  some (site.node.replacedBy (assertion ++ " " ++ path.text ++ ", :" ++ predicate))
              [argument.report message fix]
          | _, _ => []
        else
          []

end FormulaLint.Rules
