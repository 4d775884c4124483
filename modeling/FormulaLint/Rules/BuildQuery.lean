import FormulaLint.Rule
import FormulaLint.Rules.Flag
import FormulaLint.Tree.Call
import FormulaLint.Tree.Literal
import FormulaLint.Tree.Negation
import FormulaLint.Tree.Statement

/-! Rules about queries of the build options. -/

namespace FormulaLint.Rules

def optionQueries : List String := ["with?", "without?"]

/-- A condition under `unless` becomes the complementary one under `if`. -/
def unlessQuery : Rule :=
  .correcting "OptionDeclarations" "UnlessQuery" [.conditional] fun context site =>
    if site.node.label = "unless" || site.node.label = "unless_modifier" then
      match site.node.child? "condition", site.node.firstLabelled? ["unless"] with
      | some condition, some keyword =>
          if condition.asksBuild optionQueries then
            let complement := condition.withComplement
            let gap := Text.slice context.source keyword.stop condition.start
            let message := "Use if " ++ complement ++ " instead of unless " ++ condition.text
            let fix := Fix.write keyword.start condition.stop ("if" ++ gap ++ complement)
            [condition.report message (some fix)]
          else
            []
      | _, _ => []
    else
      []

def negatedQuery : Rule :=
  .correcting "OptionDeclarations" "NegatedQuery" [.operator] fun _ site =>
    match site.node.negated? with
    | none => []
    | some query =>
        if query.asksBuild optionQueries then
          let name := query.method?.getD ""
          let other := if name = "with?" then "without?" else "with?"
          let message := "Don't negate 'build." ++ name ++ "': use 'build." ++ other ++ "'"
          [site.node.report message (some (site.node.replacedBy query.withComplement))]
        else
          []

def literalArgument? (node : Node) : Option (Node × String) := do
  let argument ← node.firstArgument?
  let value ← argument.stringContent?
  return (argument, value)

def duplicatedFlagPrefix : Rule :=
  .correcting "OptionDeclarations" "DuplicatedFlagPrefix" [.methodCall] fun _ site =>
    if site.node.asksBuild optionQueries then
      match literalArgument? site.node, site.node.method? with
      | some (option, value), some query =>
          let word := if query = "with?" then "with" else "without"
          match Flag.repeated? word value.toList with
          | some (first :: others) =>
              let bare := String.ofList (first :: others)
              let message := "Don't duplicate '" ++ word ++ "': Use `build." ++ query ++ " \"" ++
                bare ++ "\"` to check for \"--" ++ word ++ "-" ++ bare ++ "\""
              let content := option.contentBounds
              [option.reportAt (option.columnInLiteral 0) message
                (some (.write content.1 content.2 bare))]
          | _ => []
      | _, _ => []
    else
      []

def includeQuery : Rule :=
  .correcting "OptionDeclarations" "IncludeQuery" [.methodCall] fun _ site =>
    if site.node.asksBuild ["include?"] then
      match literalArgument? site.node with
      | none => []
      | some (option, value) =>
          match Flag.worded? value.toList with
          | none => []
          | some (word, rest) =>
              let bare := String.ofList rest
              let query := "build." ++ word ++ "? \"" ++ bare ++ "\""
              let message := "Use " ++ query ++ " instead of build.include? '" ++ word ++ "-" ++
                bare ++ "'"
              [option.reportAt (option.columnInLiteral 0) message
                (some (site.node.replacedBy query))]
    else
      []

def dashedFlag : Rule :=
  .correcting "OptionDeclarations" "DashedFlag" [.methodCall] fun _ site =>
    if site.node.asksBuild ["include?"] then
      match literalArgument? site.node with
      | none => []
      | some (option, value) =>
          match Flag.dashed? value.toList with
          | none => []
          | some rest =>
              let bare := String.ofList rest
              let content := option.contentBounds
              [option.reportAt (option.columnInLiteral 0)
                ("Reference '" ++ bare ++ "' without dashes")
                (some (.write content.1 content.2 bare))]
    else
      []

end FormulaLint.Rules
