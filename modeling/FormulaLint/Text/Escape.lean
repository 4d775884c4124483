/-! Code points written as hexadecimal escapes. -/

namespace FormulaLint.Text

def hexadecimal (width value : Nat) : String :=
  let digits := Nat.toDigits 16 value
  String.ofList (List.replicate (width - digits.length) '0' ++ digits)

def escapedCode (code : Nat) : String :=
  if code < 0x100 then "\\x" ++ hexadecimal 2 code
  else if code < 0x10000 then "\\u" ++ hexadecimal 4 code
  else "\\U" ++ hexadecimal 8 code

example : hexadecimal 4 0xe9 = "00e9" := by decide

end FormulaLint.Text
