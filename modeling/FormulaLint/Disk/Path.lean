/-! Paths: names of folders and files, joined by slashes. -/

namespace FormulaLint

/-- A path. Empty names and single dots do not count as names; `slashes` is how many slashes a path
begins with, none for a path below the current folder. -/
structure Path where
  slashes : Nat
  names : List String
  deriving DecidableEq, Repr

namespace Path

def pieces : List Char → List (List Char)
  | [] => [[]]
  | c :: rest =>
      match pieces rest with
      | [] => [[c]]
      | first :: others => if c = '/' then [] :: first :: others else (c :: first) :: others

/-- Exactly two slashes in front are kept as they are; any other number stands for one. -/
def leadingSlashes (chars : List Char) : Nat :=
  match (chars.takeWhile (· = '/')).length with
  | 0 => 0
  | 2 => 2
  | _ => 1

def ofText (text : String) : Path where
  slashes := leadingSlashes text.toList
  names := ((pieces text.toList).map String.ofList).filter fun name => name ≠ "" && name ≠ "."

/-- A path as a text; one without names is the current folder. -/
def text (path : Path) : String :=
  if path.slashes = 0 && path.names.isEmpty then "."
  else String.ofList (List.replicate path.slashes '/') ++ String.intercalate "/" path.names

def parent (path : Path) : Path :=
  { path with names := path.names.dropLast }

def join (path : Path) (names : List String) : Path :=
  { path with names := path.names ++ names }

/-- What a name has from its last dot on, unless the dot is its first or its last character. -/
def suffixOf (name : List Char) : List Char :=
  let ending := (name.reverse.takeWhile (· != '.')).reverse
  if ending.length + 1 < name.length && !ending.isEmpty then '.' :: ending else []

def suffix (path : Path) : String :=
  String.ofList (suffixOf (path.names.getLast?.getD "").toList)

example : (ofText ".//Formula/./a.b.rb").text = "Formula/a.b.rb" := by decide

example : (ofText "Formula/a.b.rb").suffix = ".rb" ∧ (ofText "Formula/.rb").suffix = "" := by decide

end Path

end FormulaLint
