import FormulaLint.Character.Blank

/-! White space in a text: padding at its ends and gaps between its words. -/

namespace FormulaLint.Text

open Character

def isBlankText (chars : List Char) : Bool :=
  chars.all isBlank

def trimEnd (chars : List Char) : List Char :=
  (chars.reverse.dropWhile isBlank).reverse

def firstWord (chars : List Char) : List Char :=
  (chars.dropWhile isBlank).takeWhile fun c => !isBlank c

/-- Whether a text is over or goes on with white space. -/
def endsWord : List Char → Bool
  | [] => true
  | c :: _ => isBlank c

end FormulaLint.Text
