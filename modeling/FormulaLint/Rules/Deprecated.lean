import FormulaLint.Rule
import FormulaLint.Rules.Flag
import FormulaLint.Tree.Call
import FormulaLint.Tree.Literal
import FormulaLint.Tree.Statement

/-! Rules about constructs that formulae no longer use. -/

namespace FormulaLint.Rules

/-! ## Statements -/

def inreplaceBlockVariable : Rule :=
  .convention "Miscellaneous" "InreplaceBlockVariable" [.methodCall] fun _ site =>
    if site.node.calls ["inreplace"] .nothing then
      match (site.node.block?.bind (·.child? "parameters")).map (·.namedChildren) with
      | some [name] =>
          if name.text.length ≤ 1 then []
          else
            let message := "\"inreplace <filenames> do |s|\" is preferred over \"|" ++ name.text ++
              "|\"."
            [site.node.report message none]
      | _ => []
    else
      []

def zeroRebuild : Rule :=
  .correcting "Miscellaneous" "ZeroRebuild" [.methodCall] fun context site =>
    if site.node.calls ["rebuild"] .nothing then
      match site.node.firstArgument? with
      | none => []
      | some value =>
          if value.label = "integer" && value.text = "0" then
            [site.node.report "'rebuild 0' should be removed"
              (some (site.node.deletion context.source))]
          else
            []
    else
      []

def namesSymbol (node : Node) (name : String) : Bool :=
  node.firstArgument?.any fun argument => argument.symbolText? == some name

def llvmFailure : Rule :=
  .correcting "Miscellaneous" "LlvmFailure" [.methodCall] fun context site =>
    if site.node.calls ["fails_with"] .nothing && namesSymbol site.node "llvm" then
      [site.node.report "'fails_with :llvm' is now a no-op so should be removed"
        (some (site.node.deletion context.source))]
    else
      []

def skipCleanAdvice : String :=
  "`skip_clean :all` is deprecated; brew no longer strips symbols\n" ++
    "        Pass explicit paths to prevent Homebrew from removing empty folders."

def skipCleanAll : Rule :=
  .convention "Miscellaneous" "SkipCleanAll" [.methodCall] fun _ site =>
    if site.node.calls ["skip_clean"] .nothing && namesSymbol site.node "all" then
      [site.node.report skipCleanAdvice none]
    else
      []

/-! ## Questions about the system -/

/-- Concerns the main tap only; the packaged policy restricts it by path. -/
def linuxCheck : Rule :=
  .convention "Miscellaneous" "LinuxCheck" [.methodCall] fun _ site =>
    if site.node.calls ["linux?"] (.written "OS") then
      [site.node.report "Don't use OS.linux?; Homebrew/core only supports macOS" none]
    else
      []

def universalBinary : Rule :=
  .convention "Miscellaneous" "UniversalBinary" [.methodCall] fun _ site =>
    if site.node.calls ["universal?"] (.written "build") ||
        site.node.calls ["universal_binary"] (.written "ENV") then
      match site.node.receiver?, site.node.method? with
      | some receiver, some method =>
          let message := "macOS has been 64-bit only since 10.6 so " ++ receiver.text ++ "." ++
            method ++ " is deprecated."
          [site.node.report message none]
      | _, _ => []
    else
      []

/-- The message is the table's own. -/
def deprecatedEnvMethod : Rule :=
  .convention "Miscellaneous" "DeprecatedEnvMethod" [.methodCall] fun context site =>
    if site.node.callsOn (.written "ENV") then
      match site.node.method?.bind context.tables.deprecatedEnvironmentMethods.get? with
      | none => []
      | some phrase => [⟨phrase, site.node.line, site.node.column, none⟩]
    else
      []

def legacyMacOSCheck : Rule :=
  .convention "Miscellaneous" "LegacyMacOSCheck" [.methodCall] fun context site =>
    if site.node.calls context.tables.legacySystemChecks (.written "MacOS") then
      let message := "\"MacOS." ++ site.node.method?.getD "" ++
        "\" is deprecated, use a comparison to MacOS.version instead"
      [site.node.report message none]
    else
      []

/-! ## Command-line arguments -/

def developmentFlags : List String := ["--HEAD", "--devel"]

/-- Whether a call looks for a flag of a development version among the arguments. -/
def seeksDevelopmentFlag (node : Node) : Bool :=
  node.calls ["include?"] (.written "ARGV") &&
    (node.firstArgument?.bind (·.stringContent?)).any developmentFlags.contains

def argvOptions : Rule :=
  .convention "Miscellaneous" "ArgvOptions" [.methodCall] fun _ site =>
    if !site.node.callsOn (.written "ARGV") || seeksDevelopmentFlag site.node then []
    else [site.node.report "Use build instead of ARGV to check options" none]

def developmentQuery (flag : String) : String :=
  "build." ++ String.ofList ((Flag.undashed flag.toList).map Char.toLower) ++ "?"

def argvHeadFlag : Rule :=
  .correcting "Miscellaneous" "ArgvHeadFlag" [.methodCall] fun _ site =>
    if !site.node.calls ["include?"] (.written "ARGV") then []
    else
      match site.node.firstArgument? with
      | none => []
      | some flag =>
          match flag.stringContent? with
          | none => []
          | some value =>
              if !developmentFlags.contains value then []
              else
                let query := developmentQuery value
                [flag.reportAt (flag.columnInLiteral 0) ("Use \"if " ++ query ++ "\" instead")
                  (some (site.node.replacedBy query))]

/-! ## Constants and versions -/

/-- A name that is part of a longer one, or that a class or module is declared under, is not meant.
-/
def deprecatedConstant : Rule :=
  .correcting "Miscellaneous" "DeprecatedConstant" [.constantReference] fun context site =>
    let declared := site.parent?.any fun parent =>
      ["scope_resolution", "class", "module"].contains parent.label
    if site.node.label = "constant" && !declared then
      match context.tables.deprecatedConstants.get? site.node.text with
      | none => []
      | some phrase =>
          let message := "Use " ++ phrase.display ++ " instead of " ++ site.node.text
          [site.node.report message (some ⟨site.node.start, site.node.stop, phrase⟩)]
    else
      []

def versionHeadComparison : Rule :=
  .correcting "Miscellaneous" "VersionHeadComparison" [.operator] fun _ site =>
    if site.node.label = "binary" then
      match site.node.child? "left", site.node.child? "operator", site.node.child? "right" with
      | some left, some operator, some right =>
          if left.text = "version" && operator.text = "==" &&
              right.stringContent? = some "HEAD" then
            [site.node.report "Use 'build.head?' instead of inspecting 'version'"
              (some (site.node.replacedBy "build.head?"))]
          else
            []
      | _, _, _ => []
    else
      []

end FormulaLint.Rules
