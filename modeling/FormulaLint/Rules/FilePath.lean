import FormulaLint.Rule
import FormulaLint.Text.Search
import FormulaLint.Tree.Call
import FormulaLint.Tree.Literal
import FormulaLint.Tree.Statement

/-! Rules about files, directories and paths. -/

namespace FormulaLint.Rules

def fileUtilsNamespace : Rule :=
  .correcting "Miscellaneous" "FileUtilsNamespace" [.methodCall] fun context site =>
    if site.node.calls context.tables.fileMethods (.written "FileUtils") then
      match site.node.receiver?, site.node.child? "method" with
      | some receiver, some method =>
          [site.node.report ("Don't need 'FileUtils.' before " ++ method.text)
            (some (.write receiver.start method.start ""))]
      | _, _ => []
    else
      []

def globCharacters : List Char := ['*', '{', '}', ',']

/-- A directory listing of a path that is no glob is the path itself. -/
def nonGlobDir : Rule :=
  .correcting "Miscellaneous" "NonGlobDir" [.elementReference] fun _ site =>
    if (site.node.child? "object").any fun target => target.text == "Dir" then
      match site.node.arguments with
      | [argument] =>
          match argument.stringContent? with
          | none => []
          | some path =>
              if path.isEmpty || path.toList.any globCharacters.contains then []
              else
                let message := "Dir([\"" ++ path ++ "\"]) is unnecessary; just use \"" ++ path ++
                  "\""
                [argument.reportAt (argument.columnInLiteral 0) message
                  (some (site.node.replacedBy argument.text))]
      | _ => []
    else
      []

/-! ## Manual pages -/

/-- Whether a text names a section of the manual, with or without a line feed behind it. -/
def isManSection (chars : List Char) : Bool :=
  match Text.stripFront "man".toList chars with
  | some [digit] => '1' ≤ digit && digit ≤ '8'
  | some [digit, '\n'] => '1' ≤ digit && digit ≤ '8'
  | _ => false

/-- The right side of an addition to `man`. With a gap only before the sign, the addition reads as a
call of `man` with a signed argument. -/
def addedToMan? (node : Node) : Option Node :=
  if node.label = "binary" then
    match node.child? "left", node.child? "operator" with
    | some left, some operator =>
        if left.text = "man" && operator.text = "+" then node.child? "right" else none
    | _, _ => none
  else if node.calls ["man"] .nothing then
    match node.arguments with
    | [argument] =>
        if argument.label = "unary" && argument.text.toList.head? = some '+' then
          argument.child? "operand"
        else
          none
    | _ => none
  else
    none

def manPathConcatenation : Rule :=
  .correcting "Miscellaneous" "ManPathConcatenation" [.operator, .methodCall] fun _ site =>
    match addedToMan? site.node with
    | none => []
    | some page =>
        match page.stringContent? with
        | none => []
        | some value =>
            if isManSection value.toList then
              [page.reportAt (page.columnInLiteral 0)
                ("\"" ++ site.node.text ++ "\" should be \"" ++ value ++ "\"")
                (some (site.node.replacedBy value))]
            else
              []

/-! ## Path shortcuts -/

/-- The helper that an interpolation consists of, if the table knows it. -/
def interpolatedHelper? (shortcuts : Dictionary (List Pattern)) (part : Node) :
    Option (String × List Pattern) :=
  if part.label = "interpolation" then
    match part.namedChildren with
    | [inner] =>
        if inner.label = "identifier" then
          (shortcuts.get? inner.text).map fun patterns => (inner.text, patterns)
        else
          none
    | _ => none
  else
    none

/-- What one interpolation and the text behind it give: the first pattern of the helper that matches
decides. A group that took no part in the match is written as `None`. -/
def shortcutDraft? (shortcuts : Dictionary (List Pattern)) (part fragment : Node) :
    Option Draft := do
  let (helper, patterns) ← interpolatedHelper? shortcuts part
  if fragment.label ≠ "string_content" then none
  let (pattern, found) ← patterns.findSome? fun pattern =>
    (pattern.search fragment.text).map fun found => (pattern, found)
  let shortcut := (pattern.named found "shortcut").getD "None"
  let matched := Text.slice fragment.text found.start found.stop
  let message := "\"#\x7b" ++ helper ++ "\x7d" ++ matched ++ "\" should be \"#\x7b" ++ shortcut ++
    "\x7d\""
  let fix := Fix.write part.start (fragment.start + found.stop) ("#\x7b" ++ shortcut ++ "\x7d")
  return fragment.reportAt (fragment.columnInLiteral found.start) message (some fix)

/-- A path below a helper that has a helper of its own; the first one of a literal is reported. -/
def pathShortcut : Rule :=
  .correcting "Miscellaneous" "PathShortcut" [.literal] fun context site =>
    if site.node.label = "string" then
      let parts := site.node.children
      let shortcuts := context.tables.pathShortcuts
      ((parts.zip parts.tail).findSome? fun pair => shortcutDraft? shortcuts pair.1 pair.2).toList
    else
      []

end FormulaLint.Rules
