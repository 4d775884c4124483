import FormulaLint.Rule
import FormulaLint.Text.Blank
import FormulaLint.Text.Search

/-! Rules about comments. -/

namespace FormulaLint.Rules

def templateComment : Rule :=
  .convention "Comments" "TemplateComment" [.comment] fun context site =>
    let chars := site.node.text.toList
    if context.tables.templateComments.any fun template => Text.occurs template.toList chars then
      [site.node.report "Please remove default template comments" none]
    else
      []

def commentedDependencyPattern : Pattern.Expression :=
  let blank : Pattern.Expression := .char (.set false [.named .blank false] false)
  .sequenceOf [
    .literal "#",
    .repetition blank 0 none .most,
    .literal "depends_on",
    .repetition blank 1 none .most,
    .group 1 (.repetition (.char (.any false)) 1 none .most),
    .repetition blank 0 none .most,
    .anchor .lastLineEnd]

def commentedDependency : Rule :=
  .convention "Comments" "CommentedDependency" [.comment] fun _ site =>
    match commentedDependencyPattern.search site.node.text with
    | none => []
    | some found =>
        let dependency := (found.group? 1).getD ""
        let trimmed := String.ofList (Text.trimEnd dependency.toList)
        [site.node.report ("Commented-out dependency " ++ trimmed) none]

end FormulaLint.Rules
