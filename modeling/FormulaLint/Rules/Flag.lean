import FormulaLint.Text.Search

/-! Build flags as texts: the dashes and the words `with-` and `without-` in front of an option. -/

namespace FormulaLint.Flag

def firstLine (chars : List Char) : List Char :=
  chars.takeWhile (· != '\n')

/-- A flag without the dashes in front, of which at most two are taken. -/
def dropDashes : List Char → List Char
  | '-' :: '-' :: rest => rest
  | '-' :: rest => rest
  | chars => chars

def afterWord? (word : String) (chars : List Char) : Option (List Char) :=
  Text.stripFront (word.toList ++ ['-']) chars

def repeated? (word : String) (flag : List Char) : Option (List Char) :=
  (afterWord? word (dropDashes flag)).map firstLine

def worded? (flag : List Char) : Option (String × List Char) :=
  match afterWord? "with" flag with
  | some rest => some ("with", firstLine rest)
  | none => (afterWord? "without" flag).map fun rest => ("without", firstLine rest)

/-- What follows two dashes, if it fills the line and no other line follows. A line feed at the very
end is left out. -/
def dashed? (flag : List Char) : Option (List Char) :=
  match Text.stripFront ['-', '-'] flag with
  | none => none
  | some rest =>
      if (rest.dropWhile (· != '\n')).length ≤ 1 then some (firstLine rest) else none

def bare (flag : List Char) : List Char :=
  let inner := dropDashes flag
  match afterWord? "with" inner with
  | some rest => rest
  | none => (afterWord? "without" inner).getD flag

def undashed (flag : List Char) : List Char :=
  flag.dropWhile (· == '-')

end FormulaLint.Flag
