import FormulaLint.Json
import FormulaLint.Text.Encoding

/-! Reading JSON documents. A reader gives what it has read and the characters that are left.
Numbers are whole or have one digit behind the point; no other numbers are known here. -/

namespace FormulaLint.Json

abbrev Reader (α : Type) := List Char → Option (α × List Char)

def isGap (c : Char) : Bool :=
  c = ' ' || c = '\t' || c = '\n' || c = '\r'

def skipGaps (chars : List Char) : List Char :=
  chars.dropWhile isGap

/-! ## Texts -/

def hexadecimalDigit? (c : Char) : Option Nat :=
  if '0' ≤ c && c ≤ '9' then some (c.toNat - 48)
  else if 'a' ≤ c && c ≤ 'f' then some (c.toNat - 87)
  else if 'A' ≤ c && c ≤ 'F' then some (c.toNat - 55)
  else none

def unit? (digits : List Char) : Option Nat :=
  digits.foldlM (fun value c => (hexadecimalDigit? c).map (16 * value + ·)) 0

def escaped? : Char → Option Nat
  | 'n' => some 10
  | 'r' => some 13
  | 't' => some 9
  | 'b' => some 8
  | 'f' => some 12
  | c => if c = '\x22' || c = '\\' || c = '/' then some c.toNat else none

/-- The units of a text behind its opening quote. -/
def readUnits : List Char → Option (List Nat × List Char)
  | [] => none
  | '\\' :: 'u' :: a :: b :: c :: d :: rest => do
      let unit ← unit? [a, b, c, d]
      let (units, left) ← readUnits rest
      return (unit :: units, left)
  | '\\' :: c :: rest => do
      let unit ← escaped? c
      let (units, left) ← readUnits rest
      return (unit :: units, left)
  | c :: rest =>
      if c = '\x22' then some ([], rest)
      else if c.toNat < 32 || c = '\\' then none
      else (readUnits rest).map fun read => (c.toNat :: read.1, read.2)

/-- Two units that stand for one character beyond the first plane are put together. -/
def joinUnits : List Nat → List Nat
  | high :: low :: rest =>
      if 0xD800 ≤ high && high < 0xDC00 && 0xDC00 ≤ low && low < 0xE000 then
        (0x10000 + 0x400 * (high - 0xD800) + (low - 0xDC00)) :: joinUnits rest
      else
        high :: joinUnits (low :: rest)
  | units => units

def readText : Reader String := fun chars => do
  let (units, rest) ← readUnits chars
  match Text.ofCodePoints (joinUnits units) with
  | .ok content => return (content, rest)
  | .error _ => none

/-! ## Numbers -/

def decimalValue (digits : List Char) : Nat :=
  digits.foldl (fun value c => 10 * value + (c.toNat - 48)) 0

def isDigit (c : Char) : Bool :=
  '0' ≤ c && c ≤ '9'

def signed (negative : Bool) (value : Nat) : Int :=
  if negative then -value else value

def readNumber (negative : Bool) : Reader Json := fun chars =>
  match chars.takeWhile isDigit, chars.dropWhile isDigit with
  | [], _ => none
  | digits, '.' :: c :: rest =>
      if isDigit c && !(rest.head?.any isDigit) then
        some (.decimal (signed negative (decimalValue (digits ++ [c]))), rest)
      else
        none
  | digits, rest => some (.whole (signed negative (decimalValue digits)), rest)

/-! ## Documents -/

mutual

/-- A value, gaps in front of it included. The fuel bounds the steps; two for each character are
enough. -/
def readValue : (fuel : Nat) → Reader Json
  | 0, _ => none
  | fuel + 1, chars =>
      match skipGaps chars with
      | 'n' :: 'u' :: 'l' :: 'l' :: rest => some (.null, rest)
      | 't' :: 'r' :: 'u' :: 'e' :: rest => some (.flag true, rest)
      | 'f' :: 'a' :: 'l' :: 's' :: 'e' :: rest => some (.flag false, rest)
      | '\x22' :: rest => (readText rest).map fun read => (.text read.1, read.2)
      | '-' :: rest => readNumber true rest
      | '[' :: rest =>
          match skipGaps rest with
          | ']' :: left => some (.array [], left)
          | inner => (readItems fuel inner).map fun read => (.array read.1, read.2)
      | '\x7b' :: rest =>
          match skipGaps rest with
          | '\x7d' :: left => some (.object [], left)
          | inner => (readMembers fuel inner).map fun read => (.object read.1, read.2)
      | other => readNumber false other

def readItems : (fuel : Nat) → Reader (List Json)
  | 0, _ => none
  | fuel + 1, chars => do
      let (item, rest) ← readValue fuel chars
      match skipGaps rest with
      | ',' :: more =>
          let (items, left) ← readItems fuel more
          return (item :: items, left)
      | ']' :: left => return ([item], left)
      | _ => none

def readMembers : (fuel : Nat) → Reader (List (String × Json))
  | 0, _ => none
  | fuel + 1, chars =>
      match skipGaps chars with
      | '\x22' :: quoted => do
          let (name, rest) ← readText quoted
          match skipGaps rest with
          | ':' :: behind => do
              let (value, rest) ← readValue fuel behind
              match skipGaps rest with
              | ',' :: more =>
                  let (members, left) ← readMembers fuel more
                  return ((name, value) :: members, left)
              | '\x7d' :: left => return ([(name, value)], left)
              | _ => none
          | _ => none
      | _ => none

end

def ofText? (text : String) : Option Json :=
  match readValue (2 * text.length + 2) text.toList with
  | some (document, rest) => if (skipGaps rest).isEmpty then some document else none
  | none => none

end FormulaLint.Json
