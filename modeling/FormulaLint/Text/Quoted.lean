import FormulaLint.Character.Printable
import FormulaLint.Text.Escape

/-! The quoted form of a text, as messages show it. The text stands between single quotes, or
between double quotes if it holds single ones and no double ones; the quote in use and the backslash
are escaped, and so is every character that does not print. -/

namespace FormulaLint.Text

def quoteMark (chars : List Char) : Char :=
  if chars.contains '\x27' && !chars.contains '\x22' then '\x22' else '\x27'

def quotedChar (mark c : Char) : List Char :=
  if c = mark || c = '\\' then ['\\', c]
  else if c = '\n' then ['\\', 'n']
  else if c = '\r' then ['\\', 'r']
  else if c = '\t' then ['\\', 't']
  else if Character.isPrintable c then [c]
  else (escapedCode c.toNat).toList

def quoted (text : String) : String :=
  let mark := quoteMark text.toList
  String.ofList (mark :: text.toList.flatMap (quotedChar mark) ++ [mark])

example : quoted "it's" = "\"it's\"" := by decide

example : quoted "a\"'\n" = "'a\"\\'\\n'" := by decide

end FormulaLint.Text
