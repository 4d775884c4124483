import FormulaLint.Rule
import FormulaLint.Tree.Statement

/-! Rules about the declarations of classes and methods. -/

namespace FormulaLint.Rules

/-- A class and its parent are separated by one space on either side of the sign between them,
unless the declaration goes on in another line. -/
def inheritanceSpacing : Rule :=
  .correcting "ClassInheritance" "Spacing" [.classDefinition] fun context site =>
    match site.node.child? "name", site.node.child? "superclass" with
    | some name, some superclass =>
        match superclass.namedChildren with
        | [] => []
        | parent :: _ =>
            let gap := Text.slice context.source name.stop parent.start
            if gap = " < " || gap.toList.contains '\n' then []
            else
              let message := "Use a space in class inheritance: class " ++ name.text ++ " < " ++
                parent.text
              [parent.report message (some (.write name.stop parent.start " < "))]
    | _, _ => []

def legacyOptionsMethod : Rule :=
  .convention "OptionDeclarations" "LegacyOptionsMethod" [.methodDefinition] fun _ site =>
    let named := (site.node.child? "name").any fun name => name.text == "options"
    if site.node.label = "method" && named && site.isInClass then
      [site.node.report "Use new-style option definitions" none]
    else
      []

/-- A test method becomes a test block; one with parameters has to be changed by hand. -/
def legacyTestMethod : Rule :=
  .correcting "Miscellaneous" "LegacyTestMethod" [.methodDefinition] fun _ site =>
    if site.node.label = "method" && site.isInClass then
      match site.node.child? "name" with
      | none => []
      | some name =>
          if name.text = "test" then
            let fix :=
              if (site.node.child? "parameters").isNone then
                some (Fix.write site.node.start name.stop "test do")
              else
                none
            [site.node.report "Use new-style test definitions (test do)" fix]
          else
            []
    else
      []

def definitionScopes : List String := ["class", "module", "singleton_class"]

def topLevelMethod : Rule :=
  .convention "Miscellaneous" "TopLevelMethod" [.methodDefinition] fun _ site =>
    if site.node.label = "method" &&
        !site.ancestors.any fun ancestor => definitionScopes.contains ancestor.label then
      let name := ((site.node.child? "name").map (·.text)).getD "?"
      let message := "Define method " ++ name ++ " in the class body, not at the top-level"
      [site.node.report message none]
    else
      []

end FormulaLint.Rules
