import FormulaLint.Pattern.Expression
import FormulaLint.Pattern.Token

/-! Escapes in a written pattern. -/

namespace FormulaLint.Pattern

def isHexadecimal (c : Char) : Bool :=
  c.isDigit || ('a' ≤ c && c ≤ 'f') || ('A' ≤ c && c ≤ 'F')

def isOctal (c : Char) : Bool :=
  '0' ≤ c && c ≤ '7'

def isAsciiLetter (c : Char) : Bool :=
  ('a' ≤ c && c ≤ 'z') || ('A' ≤ c && c ≤ 'Z')

def digitValue (c : Char) : Nat :=
  if c.isDigit then c.toNat - 48 else if 'a' ≤ c then c.toNat - 87 else c.toNat - 55

def numeral (base : Nat) (digits : List Char) : Nat :=
  digits.foldl (fun value c => value * base + digitValue c) 0

def controlCode : Char → Option Nat
  | 'a' => some 7
  | 'f' => some 12
  | 'n' => some 10
  | 'r' => some 13
  | 't' => some 9
  | 'v' => some 11
  | '\\' => some 92
  | _ => none

def classItem : Char → Option SetItem
  | 'd' => some (.named .digit false)
  | 'D' => some (.named .digit true)
  | 's' => some (.named .blank false)
  | 'S' => some (.named .blank true)
  | 'w' => some (.named .word false)
  | 'W' => some (.named .word true)
  | _ => none

def escapeAnchor : Char → Option Anchor
  | 'A' => some .textStart
  | 'Z' => some .textEnd
  | 'b' => some .wordEdge
  | 'B' => some .noWordEdge
  | _ => none

def hexadecimalWidth : Char → Option Nat
  | 'x' => some 2
  | 'u' => some 4
  | 'U' => some 8
  | _ => none

def hexadecimalCode (letter : Char) (width : Nat) : Reading Nat := do
  let digits ← takeChars isHexadecimal width
  let written := String.ofList ('\\' :: letter :: digits)
  if digits.length < width then fail (.incompleteEscape written) written.length
  else
    let code := numeral 16 digits
    if 0x10FFFF < code then fail (.badEscape written) written.length else return code

def octalCode (digits : List Char) : Reading Nat := do
  let code := numeral 8 digits
  let written := String.ofList ('\\' :: digits)
  if 255 < code then fail (.octalTooLarge written) written.length else return code

def badEscape {α : Type} (c : Char) : Reading α :=
  fail (.badEscape (String.ofList ['\\', c])) 2

def setEscape (c : Char) : Reading SetItem := do
  match if c = 'b' then some 8 else controlCode c with
  | some code => return .code code
  | none =>
      match classItem c with
      | some item => return item
      | none =>
          match hexadecimalWidth c with
          | some width => return .code (← hexadecimalCode c width)
          | none =>
              if isOctal c then
                return .code (← octalCode (c :: (← takeChars isOctal 2)))
              else if c.isDigit || isAsciiLetter c then badEscape c
              else return .code c.toNat

inductive EscapeMeaning where
  | code (value : Nat)
  | item (item : SetItem)
  | anchor (place : Anchor)
  | reference (number : Nat)

def groupReference (digits : List Char) : Reading EscapeMeaning := do
  let reader ← get
  let number := numeral 10 digits
  if number ≤ reader.groupCount then
    if reader.closed.contains number then return .reference number
    else fail .openGroup (digits.length + 1)
  else
    fail (.invalidReference number) digits.length

def outerEscape (c : Char) : Reading EscapeMeaning := do
  match classItem c with
  | some item => return .item item
  | none =>
  match escapeAnchor c with
  | some place => return .anchor place
  | none =>
  match controlCode c with
  | some code => return .code code
  | none =>
  match hexadecimalWidth c with
  | some width => return .code (← hexadecimalCode c width)
  | none =>
      if c = '0' then
        return .code (numeral 8 (← takeChars isOctal 2))
      else if c.isDigit then
        match ← takeChars Char.isDigit 1 with
        | [] => groupReference [c]
        | second =>
            if isOctal c && second.all isOctal then
              match ← takeChars isOctal 1 with
              | [] => groupReference (c :: second)
              | third => return .code (← octalCode (c :: second ++ third))
            else
              groupReference (c :: second)
      else if isAsciiLetter c then badEscape c
      else return .code c.toNat

end FormulaLint.Pattern
