import FormulaLint.Rule
import FormulaLint.Rules.Flag
import FormulaLint.Tree.Call
import FormulaLint.Tree.Literal
import FormulaLint.Tree.Statement

/-! Rules about declarations of dependencies. -/

namespace FormulaLint.Rules

def isDependency (node : Node) : Bool :=
  node.calls ["depends_on"] .nothing

def dependencyName? (node : Node) : Option Node := do
  let argument ← node.firstArgument?
  if argument.label = "pair" then argument.child? "key" else return argument

def dependencyWithOptions? (node : Node) : Option Node :=
  if isDependency node then node.firstArgument?.filter fun argument => argument.label == "pair"
  else none

def givenOptions (value : Node) : List Node :=
  if value.label = "array" then value.namedChildren.filter fun child => !child.isComment
  else [value]

def deprecatedDependency : Rule :=
  { Rule.correcting "Lines" "DeprecatedDependency" [.methodCall] fun context site =>
      if isDependency site.node then
        match dependencyName? site.node with
        | none => []
        | some dependency =>
            match dependency.symbolText? with
            | none => []
            | some name =>
                match context.tables.deprecatedDependencies.get? name with
                | none => []
                | some none => [site.node.report (":" ++ name ++ " is deprecated") none]
                | some (some phrase) =>
                    let quoted := "\"" ++ phrase.display ++ "\""
                    let message := ":" ++ name ++ " is deprecated. Usage should be " ++ quoted
                    [site.node.report message (some (dependency.replacedBy quoted))]
      else
        []
    with order := .descending }

/-- A requirement is given by its class, not by an instance made without arguments. -/
def requirementInstance : Rule :=
  .correcting "Miscellaneous" "RequirementInstance" [.methodCall] fun _ site =>
    if isDependency site.node then
      match dependencyName? site.node with
      | none => []
      | some requirement =>
          if requirement.calls ["new"] .anything && requirement.arguments.isEmpty then
            match requirement.receiver? with
            | none => []
            | some receiver =>
                if receiver.kind = .constantReference then
                  [requirement.report
                    "`depends_on` can take requirement classes instead of instances"
                    (some (requirement.replacedBy receiver.text))]
                else
                  []
          else
            []
    else
      []

def vendoredDependency : Rule :=
  .convention "Miscellaneous" "VendoredDependency" [.methodCall] fun context site =>
    let languages := context.tables.vendoredLanguages
    match (dependencyWithOptions? site.node).bind (·.child? "value") with
    | none => []
    | some value =>
        if languages.isEmpty then []
        else
          let find := fun (option : Node) => do
            let name ← option.symbolText?
            let (position, language) ← Text.findName languages 0 name.toList
            let message := language ++
              " modules should be vendored rather than use deprecated " ++ site.node.text ++ "`"
            return option.reportAt (option.columnInLiteral position) message none
          ((givenOptions value).findSome? find).toList

def dependencyOption : Rule :=
  .convention "Miscellaneous" "DependencyOption" [.methodCall] fun context site =>
    match dependencyWithOptions? site.node with
    | none => []
    | some pair =>
        match pair.child? "key", pair.child? "value" with
        | some dependency, some value =>
            match dependency.carriedName? with
            | none => []
            | some name =>
                (givenOptions value).filterMap fun option => do
                  let tag ← option.stringContent?
                  if context.tables.dependencyTags.contains tag then none
                  else
                    let message := "Dependency " ++ name ++ " should not use option " ++ tag
                    return dependency.report message none
        | _, _ => []

def asksFor (word query : String) (option : List Char) : Bool :=
  query = word ++ "?" ||
    (query = "include?" && (Flag.afterWord? word (Flag.undashed option)).isSome)

/-- The tag that says what a condition on the build says about a dependency of the given name. -/
def conditionTag? (conditional : String) (condition : Node) (name : String) :
    Option String := do
  let argument ← condition.firstArgument?
  let option ← argument.stringContent?
  let query ← condition.method?
  if !condition.calls ["with?", "without?", "include?"] (.written "build") then none
  else if Flag.bare option.toList ≠ name.toList then none
  else if conditional = "if_modifier" then
    if asksFor "with" query option.toList then some "optional" else none
  else
    if asksFor "without" query option.toList then some "recommended" else none

/-- A dependency under a condition on its own option is a dependency with a tag. -/
def conditionalDependency : Rule :=
  .correcting "Miscellaneous" "ConditionalDependency" [.conditional] fun _ site =>
    if site.node.label = "if_modifier" || site.node.label = "unless_modifier" then
      match site.node.child? "body", site.node.child? "condition" with
      | some body, some condition =>
          let tag := do
            if !isDependency body || body.arguments.length ≠ 1 then none
            let name ← (← body.firstArgument?).carriedName?
            conditionTag? site.node.label condition name
          match tag with
          | none => []
          | some tag =>
              let replacement := body.text ++ " => :" ++ tag
              let message := "Replace " ++ site.node.text ++ " with " ++ replacement
              [site.node.report message (some (site.node.replacedBy replacement))]
      | _, _ => []
    else
      []

end FormulaLint.Rules
