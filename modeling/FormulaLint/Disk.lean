import FormulaLint.Disk.FileTree
import FormulaLint.Disk.Path

/-! A disk: a tree of files and the folder from which paths are followed. -/

namespace FormulaLint

structure Disk where
  tree : FileTree
  current : List String

inductive DiskFault where
  | missing
  | notFolder
  | isFolder
  | occupied
  deriving DecidableEq, Repr

namespace Disk

/-! ## Following paths -/

def step (disk : Disk) (place : List String) (name : String) : Except DiskFault (List String) :=
  match disk.tree.at? place with
  | some (.folder _) => .ok (if name = ".." then place.dropLast else place ++ [name])
  | some (.file _) => .error .notFolder
  | none => .error .missing

/-- The place that a path leads to, which may still be free. All folders on the way have to be
there. -/
def locate (disk : Disk) (path : Path) : Except DiskFault (List String) :=
  path.names.foldlM disk.step (if path.slashes = 0 then disk.current else [])

def find? (disk : Disk) (path : Path) : Option FileTree :=
  match disk.locate path with
  | .ok place => disk.tree.at? place
  | .error _ => none

def hasFolder (disk : Disk) (path : Path) : Bool :=
  (disk.find? path).any (·.isFolder)

/-! ## Reading and writing -/

/-- The content of a file; none where there is nothing. -/
def read (disk : Disk) (path : Path) : Except DiskFault (Option ByteArray) :=
  match disk.find? path with
  | none => .ok none
  | some (.file bytes) => .ok (some bytes)
  | some (.folder _) => .error .isFolder

def write (disk : Disk) (path : Path) (bytes : ByteArray) : Except DiskFault Disk := do
  let place ← disk.locate path
  match disk.tree.at? place with
  | some (.folder _) => throw .isFolder
  | _ => return { disk with tree := disk.tree.put place (.file bytes) }

def makeFolder (disk : Disk) (path : Path) : Except DiskFault Disk := do
  let place ← disk.locate path
  match disk.tree.at? place with
  | some _ => throw .occupied
  | none => return { disk with tree := disk.tree.put place .empty }

def settleFolder (disk : Disk) (path : Path) : Except DiskFault Disk → Disk × Option DiskFault
  | .ok made => (made, none)
  | .error fault => (disk, if disk.hasFolder path then none else some fault)

/-- Make the folder with the given names, last one first, and those around it that are missing. -/
def makeFoldersUp (slashes : Nat) : List String → Disk → Disk × Option DiskFault
  | [], disk => (disk, none)
  | name :: around, disk =>
      let path : Path := ⟨slashes, (name :: around).reverse⟩
      match disk.makeFolder path with
      | .error .missing =>
          match makeFoldersUp slashes around disk with
          | (prepared, none) => prepared.settleFolder path (prepared.makeFolder path)
          | stopped => stopped
      | outcome => disk.settleFolder path outcome

/-- Make a folder and those around it where they are missing; the disk shows what was made even if
that does not succeed. -/
def makeFolders (disk : Disk) (path : Path) : Disk × Option DiskFault :=
  makeFoldersUp path.slashes path.names.reverse disk

end Disk

end FormulaLint
