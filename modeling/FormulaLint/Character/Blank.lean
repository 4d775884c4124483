import FormulaLint.Character.Span

/-! Blank characters: the white space of every script, as it separates words and pads lines. -/

namespace FormulaLint.Character

def blankSpans : List Span := [
  (133, 133), (160, 160), (5760, 5760), (8192, 8202), (8232, 8233), (8239, 8239), (8287, 8287),
  (12288, 12288)]

def isBlank (c : Char) : Bool :=
  if c.toNat < 128 then
    (9 ≤ c.toNat && c.toNat ≤ 13) || (28 ≤ c.toNat && c.toNat ≤ 32)
  else
    within blankSpans c.toNat

end FormulaLint.Character
