import FormulaLint.Dictionary

/-! Trees of folders and files. A place in a tree is the list of names that leads to it from the
top. -/

namespace FormulaLint

inductive FileTree where
  | file (bytes : ByteArray)
  | folder (entries : List (String × FileTree))

namespace FileTree

def empty : FileTree :=
  .folder []

def isFolder : FileTree → Bool
  | .file _ => false
  | .folder _ => true

def at? : FileTree → List String → Option FileTree
  | tree, [] => some tree
  | .folder entries, name :: rest => (Dictionary.get? entries name).bind fun tree => tree.at? rest
  | .file _, _ :: _ => none

/-- The tree with something put at a place. Folders on the way are made where there are none; a file
on the way stays as it is. -/
def put : FileTree → List String → FileTree → FileTree
  | _, [], content => content
  | .file bytes, _ :: _, _ => .file bytes
  | .folder entries, name :: rest, content =>
      let inner := (Dictionary.get? entries name).getD empty
      .folder (Dictionary.put name (inner.put rest content) entries)

mutual

def files : FileTree → List (List String)
  | .file _ => [[]]
  | .folder entries => filesBelow entries

def filesBelow : List (String × FileTree) → List (List String)
  | [] => []
  | (name, tree) :: rest => tree.files.map (name :: ·) ++ filesBelow rest

end

end FileTree

end FormulaLint
