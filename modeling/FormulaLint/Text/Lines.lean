/-! Lines of a text. Positions are counted over lines that end at a line feed and nothing else; the
lines that are shown to a reader end at every mark that breaks a line. -/

namespace FormulaLint.Text

/-! ## Positions -/

def lineStart (chars : List Char) (offset : Nat) : Nat :=
  ((chars.take offset).reverse.dropWhile (· != '\n')).length

def lineEnd (chars : List Char) (offset : Nat) : Nat :=
  chars.length - ((chars.drop offset).dropWhile (· != '\n')).tail.length

def lineStartsFrom (position : Nat) : List Char → List Nat
  | [] => []
  | c :: rest =>
      if c = '\n' then (position + 1) :: lineStartsFrom (position + 1) rest
      else lineStartsFrom (position + 1) rest

def lineStarts (chars : List Char) : List Nat :=
  0 :: lineStartsFrom 0 chars

def countUpTo (values : List Nat) (bound : Nat) : Nat :=
  (values.takeWhile (· ≤ bound)).length

/-- The line of an offset, counted from one, and its column, counted from zero: the last line that
starts at or before the offset. -/
def lineAndColumn (chars : List Char) (offset : Nat) : Nat × Nat :=
  let starts := lineStarts chars
  let row := countUpTo starts offset - 1
  (row + 1, offset - (starts[row]?).getD 0)

/-! ## Shown lines -/

def lineBreaks : List Char :=
  ['\n', '\r', '\x0b', '\x0c', '\x1c', '\x1d', '\x1e', '\u0085', '\u2028', '\u2029']

/-- The lines of a text whose first line already has the characters `current`, last one first. A
carriage return followed by a line feed breaks the line once. -/
def linesAfter (current : List Char) : List Char → List String
  | [] => if current.isEmpty then [] else [String.ofList current.reverse]
  | '\r' :: '\n' :: rest => String.ofList current.reverse :: linesAfter [] rest
  | c :: rest =>
      if lineBreaks.contains c then String.ofList current.reverse :: linesAfter [] rest
      else linesAfter (c :: current) rest

def lines (text : String) : List String :=
  linesAfter [] text.toList

example : lines "a\r\nb\u2028\nc" = ["a", "b", "", "c"] := by decide

example : lineAndColumn "ab\ncd".toList 4 = (2, 1) := rfl

example : lineEnd "ab\ncd".toList 1 = 3 ∧ lineEnd "ab\ncd".toList 3 = 5 := ⟨rfl, rfl⟩

/-! ## One kind of line end -/

/-- Write every carriage return, alone or before a line feed, as a line feed. -/
def unifyLineEnds : List Char → List Char
  | [] => []
  | '\r' :: '\n' :: rest => '\n' :: unifyLineEnds rest
  | c :: rest => (if c == '\r' then '\n' else c) :: unifyLineEnds rest

end FormulaLint.Text
