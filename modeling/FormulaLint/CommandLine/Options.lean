import FormulaLint.Character.Digit
import FormulaLint.Text.Quoted

/-! Options of the command line. Long options may be shortened as long as they stay unique, short
ones may share a dash, and a value may be joined to its option. -/

namespace FormulaLint.CommandLine

/-! ## What can be asked for -/

inductive ReportFormat where
  | text
  | json
  deriving DecidableEq, Repr

def ReportFormat.ofName? : String → Option ReportFormat
  | "text" => some .text
  | "json" => some .json
  | _ => none

structure Options where
  paths : List String := []
  format : ReportFormat := .text
  output : Option String := none
  families : List String := []
  configurations : List String := []
  autocorrect : Bool := false
  verbose : Bool := false
  deriving DecidableEq, Repr

inductive OptionName where
  | help
  | format
  | output
  | only
  | config
  | autocorrect
  | verbose
  deriving DecidableEq, Repr

namespace OptionName

def spellings : OptionName → List String
  | .help => ["-h", "--help"]
  | .format => ["--format"]
  | .output => ["--out", "--output"]
  | .only => ["--only"]
  | .config => ["--config", "-c"]
  | .autocorrect => ["--autocorrect", "-a"]
  | .verbose => ["--verbose", "-v"]

def takesValue : OptionName → Bool
  | .format => true
  | .output => true
  | .only => true
  | .config => true
  | _ => false

def shown (name : OptionName) : String :=
  String.intercalate "/" name.spellings

def all : List OptionName := [.help, .format, .output, .only, .config, .autocorrect, .verbose]

end OptionName

def spellingTable : List (String × OptionName) :=
  OptionName.all.flatMap fun name => name.spellings.map fun spelling => (spelling, name)

/-! ## What can be wrong -/

inductive UsageFault where
  | ambiguous (argument : String) (spellings : List String)
  | valueIgnored (name : OptionName) (value : String)
  | valueMissing (name : OptionName)
  | unknownFormat (value : String)
  | unrecognized (arguments : List String)
  deriving DecidableEq, Repr

def UsageFault.message : UsageFault → String
  | .ambiguous argument spellings =>
      "ambiguous option: " ++ argument ++ " could match " ++ String.intercalate ", " spellings
  | .valueIgnored name value =>
      "argument " ++ name.shown ++ ": ignored explicit argument " ++ Text.quoted value
  | .valueMissing name => "argument " ++ name.shown ++ ": expected one argument"
  | .unknownFormat value =>
      "argument " ++ OptionName.format.shown ++ ": invalid choice: " ++ Text.quoted value ++
        " (choose from 'text', 'json')"
  | .unrecognized arguments => "unrecognized arguments: " ++ String.intercalate " " arguments

inductive Stop where
  | help
  | fault (fault : UsageFault)
  deriving DecidableEq, Repr

/-! ## Telling options from other arguments -/

/-- An option as it is written: its name unless unknown, the dashes in front, and a value joined to
it, with or without a sign of equality. -/
structure OptionUse where
  written : String
  name : Option OptionName
  long : Bool := true
  equals : Bool := false
  value : Option (List Char) := none
  deriving DecidableEq, Repr

inductive Argument where
  | plain (text : String)
  | separator
  | option (use : OptionUse)
  deriving DecidableEq, Repr

/-- A minus sign and digits, with a point among them or not; a line feed behind them does not count.
-/
def isNegativeNumber (chars : List Char) : Bool :=
  match if chars.getLast? = some '\n' then chars.dropLast else chars with
  | '-' :: rest =>
      let whole := rest.takeWhile Character.isDecimal
      match rest.dropWhile Character.isDecimal with
      | [] => !whole.isEmpty
      | '.' :: fraction => !fraction.isEmpty && fraction.all Character.isDecimal
      | _ => false
  | _ => false

def splitEquals (chars : List Char) : List Char × Option (List Char) :=
  let front := chars.takeWhile (· != '=')
  match chars.dropWhile (· != '=') with
  | [] => (front, none)
  | _ :: rest => (front, some rest)

def isLong (spelling : List Char) : Bool :=
  match spelling with
  | '-' :: '-' :: _ => true
  | _ => false

/-- What an argument that is no spelling of an option may be short for. -/
def readings (argument : String) : List (String × OptionUse) :=
  let chars := argument.toList
  if isLong chars then
    let (front, value) := splitEquals chars
    (spellingTable.filter fun entry => front.isPrefixOf entry.1.toList).map fun entry =>
      (entry.1, ⟨argument, some entry.2, true, value.isSome, value⟩)
  else
    spellingTable.filterMap fun entry =>
      if entry.1.toList = chars.take 2 then
        some (entry.1, ⟨argument, some entry.2, false, false, some (chars.drop 2)⟩)
      else if chars.isPrefixOf entry.1.toList then
        some (entry.1, ⟨argument, some entry.2, isLong entry.1.toList, false, none⟩)
      else
        none

def classify (argument : String) : Except Stop Argument :=
  let chars := argument.toList
  if chars.head? ≠ some '-' then .ok (.plain argument)
  else
    match spellingTable.lookup argument with
    | some name => .ok (.option ⟨argument, some name, isLong chars, false, none⟩)
    | none =>
        if chars.length = 1 then .ok (.plain argument)
        else
          let (front, value) := splitEquals chars
          match value, spellingTable.lookup (String.ofList front) with
          | some value, some name =>
              .ok (.option ⟨argument, some name, isLong front, true, some value⟩)
          | _, _ =>
              match readings argument with
              | [] =>
                  if isNegativeNumber chars || chars.contains ' ' then .ok (.plain argument)
                  else .ok (.option ⟨argument, none, true, false, none⟩)
              | [(_, use)] => .ok (.option use)
              | several => .error (.fault (.ambiguous argument (several.map (·.1))))

def classifyAll : List String → Except Stop (List Argument)
  | [] => .ok []
  | argument :: rest =>
      if argument = "--" then .ok (.separator :: rest.map Argument.plain)
      else do
        let first ← classify argument
        return first :: (← classifyAll rest)

/-! ## Applying options -/

structure Taken where
  uses : List (OptionName × String)
  leftover : List String
  rest : List Argument

def takeBare (name : OptionName) (rest : List Argument) : Except Stop Taken :=
  if name.takesValue then
    match rest with
    | .plain value :: rest => .ok ⟨[(name, value)], [], rest⟩
    | _ => .error (.fault (.valueMissing name))
  else
    .ok ⟨[(name, "")], [], rest⟩

def takeJoined (name : OptionName) (equals : Bool) (rest : List Argument) :
    List Char → Except Stop Taken
  | [] =>
      if name.takesValue then .ok ⟨[(name, "")], [], rest⟩
      else .error (.fault (.valueIgnored name ""))
  | c :: tail =>
      let value := String.ofList (c :: tail)
      if name.takesValue then .ok ⟨[(name, value)], [], rest⟩
      else if equals || c = '-' then .error (.fault (.valueIgnored name value))
      else
        match spellingTable.lookup (String.ofList ['-', c]) with
        | none => .ok ⟨[(name, "")], ["-" ++ value], rest⟩
        | some next =>
            let later := match tail with
              | [] => takeBare next rest
              | '=' :: more => takeJoined next true rest more
              | more => takeJoined next false rest more
            later.map fun taken => { taken with uses := (name, "") :: taken.uses }

def takeOption (use : OptionUse) (rest : List Argument) : Except Stop Taken :=
  match use.name with
  | none => .ok ⟨[], [use.written], rest⟩
  | some name =>
      match use.value with
      | none => takeBare name rest
      | some value =>
          if !use.long then takeJoined name use.equals rest value
          else if name.takesValue then .ok ⟨[(name, String.ofList value)], [], rest⟩
          else .error (.fault (.valueIgnored name (String.ofList value)))

def Options.apply (options : Options) (use : OptionName × String) : Except Stop Options :=
  match use.1 with
  | .help => .error .help
  | .format =>
      match ReportFormat.ofName? use.2 with
      | some format => .ok { options with format := format }
      | none => .error (.fault (.unknownFormat use.2))
  | .output => .ok { options with output := some use.2 }
  | .only => .ok { options with families := options.families ++ [use.2] }
  | .config => .ok { options with configurations := options.configurations ++ [use.2] }
  | .autocorrect => .ok { options with autocorrect := true }
  | .verbose => .ok { options with verbose := true }

def Argument.text : Argument → String
  | .plain text => text
  | .separator => "--"
  | .option use => use.written

def Argument.isOption : Argument → Bool
  | .option _ => true
  | _ => false

/-- Only the first run of arguments that are no options gives the paths; later ones are left over.
The first separator among the paths is dropped. -/
def collect : (fuel : Nat) → Options → (pathsTaken : Bool) → (leftover : List String) →
    List Argument → Except Stop (Options × List String)
  | 0, options, _, leftover, _ => .ok (options, leftover)
  | _, options, _, leftover, [] => .ok (options, leftover)
  | fuel + 1, options, pathsTaken, leftover, .option use :: rest => do
      let taken ← takeOption use rest
      let options ← taken.uses.foldlM Options.apply options
      collect fuel options pathsTaken (leftover ++ taken.leftover) taken.rest
  | fuel + 1, options, pathsTaken, leftover, first :: rest =>
      let run := ((first :: rest).takeWhile fun argument => !argument.isOption).map (·.text)
      let later := (first :: rest).dropWhile fun argument => !argument.isOption
      if pathsTaken then collect fuel options true (leftover ++ run) later
      else collect fuel { options with paths := run.erase "--" } true leftover later

def Options.ofArguments (arguments : List String) : Except Stop Options := do
  let classified ← classifyAll arguments
  let (options, leftover) ← collect (classified.length + 1) {} false [] classified
  if leftover.isEmpty then return options else throw (.fault (.unrecognized leftover))

/-! ## Usage -/

def usage : String := String.intercalate "\n" [
  "usage: formula-audit [-h] [--format \x7btext,json\x7d] [--out OUTPUT_PATH]",
  "                     [--only FAMILIES] [--config CONFIG_PATHS] [--autocorrect]",
  "                     [--verbose]",
  "                     [paths ...]",
  ""]

def help : String := usage ++ String.intercalate "\n" [
  "",
  "Static analyzer for Homebrew formula files",
  "",
  "positional arguments:",
  "  paths                 Formula files or directories to audit (defaults to",
  "                        ./Formula).",
  "",
  "options:",
  "  -h, --help            show this help message and exit",
  "  --format \x7btext,json\x7d  Report format (defaults to text).",
  "  --out OUTPUT_PATH, --output OUTPUT_PATH",
  "                        Path to write the JSON report (e.g.,",
  "                        artifacts/audit.json).",
  "  --only FAMILIES       Restrict the audit to a rule family (repeatable).",
  "  --config CONFIG_PATHS, -c CONFIG_PATHS",
  "                        Extra YAML tables or exemptions merged over the",
  "                        defaults (repeatable).",
  "  --autocorrect, -a     Rewrite files with the available corrections.",
  "  --verbose, -v         Enable debug logging.",
  ""]

def UsageFault.report (fault : UsageFault) : String :=
  usage ++ "formula-audit: error: " ++ fault.message ++ "\n"

end FormulaLint.CommandLine
