import FormulaLint.CommandLine.Session
import FormulaLint.Text.Blank
import FormulaLint.Tree.Recorded

/-! The program. What its arguments name is read from the machine's disk, the session is run on what
was read, and the files that it has changed are written back. Formulas and their trees are recorded
in files that have `.tree` added to the name of the formula. Configuration documents are read as
JSON, which is YAML as well. -/

namespace FormulaLint.CommandLine

/-! ## Languages -/

def treeSuffix : String := ".tree"

def recordedTree? (disk : Disk) (place : List String) : Option (String × ConcreteTree) := do
  let bytes ← (disk.read ⟨1, place⟩).toOption.bind id
  let text ← (Text.decode bytes).toOption
  (Json.ofText? text).bind ConcreteTree.ofJson?

def recordedTrees (disk : Disk) : List (String × ConcreteTree) :=
  (disk.tree.files.filter fun place => Path.suffix ⟨1, place⟩ = treeSuffix).filterMap
    (recordedTree? disk)

def recordedLanguages (trees : List (String × ConcreteTree)) : Languages where
  grammar := fun text => (trees.lookup text).getD (.unknown text)
  document := fun text =>
    if Text.isBlankText text.toList then .ok .null
    else
      match Json.ofText? text with
      | some document => .ok document.toValue
      | none => .error (.invalid "the text is not JSON")

/-! ## The machine's disk -/

/-- What the machine has at a path, all that is below it included if that is wanted. -/
partial def record (deep : Bool) (path : String) : IO (Option FileTree) := do
  match ← (IO.FS.realPath path).toBaseIO with
  | .error _ => return none
  | .ok real =>
      if ← real.isDir then
        let mut tree := FileTree.empty
        if deep then
          for entry in ← real.readDir do
            if let some inner ← record true (path ++ "/" ++ entry.fileName) then
              tree := tree.put [entry.fileName] inner
        return some tree
      else
        return some (.file (← IO.FS.readBinFile real))

/-- Add what a path leads through, and all that is below its end if that is wanted. -/
def recordPath (deep : Bool) (disk : Disk) (path : Path) : IO Disk := do
  let mut disk := disk
  for length in List.range (path.names.length + 1) do
    let front : Path := { path with names := path.names.take length }
    if let .ok place := disk.locate front then
      let whole := deep && length == path.names.length
      if whole || (disk.tree.at? place).isNone then
        if let some tree ← record whole front.text then
          disk := { disk with tree := disk.tree.put place tree }
  return disk

def recordDisk (options : Options) : IO Disk := do
  let current := Path.ofText (← IO.currentDir).toString
  let empty : Disk := ⟨.empty, []⟩
  let start : Disk := { (empty.makeFolders current).1 with current := current.names }
  let trees := options.roots.map fun root => Path.ofText (root.text ++ treeSuffix)
  let wanted := options.roots ++ trees ++ options.configurations.map Path.ofText
  let disk ← wanted.foldlM (recordPath true) start
  (options.output.toList.map Path.ofText).foldlM (recordPath false) disk

def writeBack (before after : Disk) : IO Unit := do
  for place in after.tree.files do
    if let some (.file bytes) := after.tree.at? place then
      let same := match before.tree.at? place with
        | some (.file earlier) => earlier == bytes
        | _ => false
      if !same then
        let path : Path := ⟨1, place⟩
        IO.FS.createDirAll path.parent.text
        IO.FS.writeBinFile path.text bytes

/-! ## The run -/

def serve (arguments : List String) : IO UInt32 := do
  let before ←
    match Options.ofArguments arguments with
    | .ok options => recordDisk options
    | .error _ => pure ⟨.empty, []⟩
  let session := session (recordedLanguages (recordedTrees before)) arguments before
  writeBack before session.disk
  IO.print session.output
  IO.eprint session.errors
  match session.exit with
  | .ok code => return code.toUInt32
  | .error _ =>
      IO.eprintln "formula-audit: the audit was broken off"
      return 1

end FormulaLint.CommandLine

def main (arguments : List String) : IO UInt32 :=
  FormulaLint.CommandLine.serve arguments
