import FormulaLint.Rule
import FormulaLint.Text.Blank
import FormulaLint.Text.Search
import FormulaLint.Tree.Call
import FormulaLint.Tree.Literal
import FormulaLint.Tree.Statement

/-! Rules about commands that a formula runs. -/

namespace FormulaLint.Rules

def commandRun? (node : Node) : Option (Node × String) :=
  if node.calls ["system"] .nothing then do
    let command ← node.firstArgument?
    let value ← command.stringContent?
    return (command, value)
  else
    none

def leadingName? (names : List String) (chars : List Char) : Option String :=
  names.find? fun name => (Text.stripFront name.toList chars).any Text.endsWord

def installNameTool : Rule :=
  .convention "Miscellaneous" "InstallNameTool" [.methodCall] fun _ site =>
    match commandRun? site.node with
    | some (command, "install_name_tool") =>
        [command.reportAt (command.columnInLiteral 0)
          "Use ruby-macho instead of calling \"install_name_tool\"" none]
    | _ => []

def npmInstallArgs : Rule :=
  .convention "Miscellaneous" "NpmInstallArgs" [.methodCall] fun _ site =>
    match site.node.arguments with
    | first :: second :: _ =>
        if (commandRun? site.node).isSome && first.stringContent? = some "npm" &&
            second.stringContent? = some "install" &&
            !Text.occurs "Language::Node".toList site.node.text.toList then
          [site.node.report "Use Language::Node for npm install args" none]
        else
          []
    | _ => []

def systemFileUtils : Rule :=
  .convention "Miscellaneous" "SystemFileUtils" [.methodCall] fun context site =>
    match commandRun? site.node with
    | none => []
    | some (command, value) =>
        let word := String.ofList (Text.firstWord value.toList)
        if !word.isEmpty && context.tables.fileMethods.contains word then
          let message := "Use the `" ++ word ++ "` Ruby method instead of `" ++ site.node.text ++
            "`"
          [command.reportAt (command.columnInLiteral 0) message none]
        else
          []

def shellEnvironment : Rule :=
  .convention "Miscellaneous" "ShellEnvironment" [.methodCall] fun context site =>
    match commandRun? site.node with
    | none => []
    | some (command, value) =>
        match leadingName? context.tables.environmentCommands value.toList with
        | none => []
        | some name =>
            let message := "Use ENV instead of invoking '" ++ name ++ "' to modify the environment"
            [command.reportAt (command.columnInLiteral 0) message none]

/-! ## Compilers -/

/-- The literal that says which program to run: the command of a `system` call, or the right side of
an assignment to an environment variable. -/
def commandLiteral? (node : Node) : Option Node :=
  if node.label = "assignment" then do
    let target ← node.child? "left"
    let environment ← if target.label = "element_reference" then target.child? "object" else none
    if environment.text = "ENV" then node.child? "right" else none
  else
    (commandRun? node).map (·.1)

def compilerDirectory : String := "/usr/bin/"

/-- The compiler that a command starts with and the length of its spelling, a directory in front
included. A list without names stands for the empty name. -/
def compilerIn? (names : List String) (command : List Char) : Option (String × Nat) :=
  let names := if names.isEmpty then [""] else names
  let inDirectory := do
    let rest ← Text.stripFront compilerDirectory.toList command
    let name ← leadingName? names rest
    return (name, compilerDirectory.length + name.length)
  match inDirectory with
  | some found => some found
  | none => (leadingName? names command).map fun name => (name, name.length)

def compilerHelper? (compilers : Dictionary (List String)) (command : List Char) :
    Option (String × String × Nat) :=
  compilers.findSome? fun entry =>
    (compilerIn? entry.2 command).map fun found => (entry.1, found.1, found.2)

/-- Compilers are chosen by the build environment. Only a literal in double quotes can refer to it.
-/
def hardcodedCompiler : Rule :=
  .correcting "Miscellaneous" "HardcodedCompiler" [.methodCall, .assignment] fun context site =>
    match commandLiteral? site.node with
    | none => []
    | some literal =>
        match literal.stringContent?.bind (compilerHelper? context.tables.compilers ·.toList) with
        | none => []
        | some (helper, name, length) =>
            let reference := "#\x7bENV." ++ helper ++ "\x7d"
            let message := "Use \"" ++ reference ++ "\" instead of hard-coding \"" ++ name ++ "\""
            let start := literal.contentBounds.1
            let fix :=
              if literal.opensWithDoubleQuote then some (Fix.write start (start + length) reference)
              else none
            [literal.reportAt (literal.columnInLiteral 0) message fix]

end FormulaLint.Rules
