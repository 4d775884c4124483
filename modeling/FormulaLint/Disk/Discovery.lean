import FormulaLint.Disk
import FormulaLint.StableSort

/-! Which files an audit visits: those that are named, and those below the folders that are named.
-/

namespace FormulaLint

def placePrecedes : List String → List String → Bool
  | [], _ => true
  | _ :: _, [] => false
  | left :: lefts, right :: rights =>
      if left = right then placePrecedes lefts rights else decide (left < right)

namespace Disk

/-- A file stands for itself, whatever its suffix; a folder for all files at any depth below it that
have one of the suffixes, in order of their places; anything else for no file. -/
def formulasUnder (disk : Disk) (suffixes : List String) (root : Path) : List Path :=
  match disk.find? root with
  | none => []
  | some (.file _) => [root]
  | some (.folder entries) =>
      ((stableSort placePrecedes (FileTree.filesBelow entries)).map root.join).filter fun path =>
        suffixes.contains path.suffix

def formulas (disk : Disk) (suffixes : List String) (roots : List Path) : List Path :=
  roots.flatMap (disk.formulasUnder suffixes)

end Disk

def formulaSuffixes : List String := [".rb"]

end FormulaLint
