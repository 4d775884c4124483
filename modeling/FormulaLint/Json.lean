import FormulaLint.Text.Escape
import FormulaLint.Value

/-! JSON documents and their printed form: two blanks per level, and only the visible characters of
ASCII. -/

namespace FormulaLint

inductive Json where
  | null
  | flag (value : Bool)
  | whole (value : Int)
  | decimal (tenths : Int)
  | text (value : String)
  | array (items : List Json)
  | object (members : List (String × Json))
  deriving Repr

namespace Json

/-! ## Texts -/

def unitEscape (unit : Nat) : List Char :=
  '\\' :: 'u' :: (Text.hexadecimal 4 unit).toList

/-- A character inside a printed text. One beyond the first plane is written as two units. -/
def printedChar (c : Char) : List Char :=
  let code := c.toNat
  if c = '\x22' || c = '\\' then ['\\', c]
  else if c = '\n' then ['\\', 'n']
  else if c = '\r' then ['\\', 'r']
  else if c = '\t' then ['\\', 't']
  else if code = 8 then ['\\', 'b']
  else if code = 12 then ['\\', 'f']
  else if code < 32 then unitEscape code
  else if code < 127 then [c]
  else if code < 0x10000 then unitEscape code
  else
    let offset := code - 0x10000
    unitEscape (0xD800 + offset / 0x400) ++ unitEscape (0xDC00 + offset % 0x400)

def printedText (text : String) : String :=
  "\"" ++ String.ofList (text.toList.flatMap printedChar) ++ "\""

/-! ## Documents -/

def newLine (depth : Nat) : String :=
  "\n" ++ String.ofList (List.replicate (2 * depth) ' ')

mutual

def print (depth : Nat) : Json → String
  | .null => "null"
  | .flag value => if value then "true" else "false"
  | .whole value => toString value
  | .decimal tenths => Scalar.decimalText tenths
  | .text value => printedText value
  | .array [] => "[]"
  | .array items => "[" ++ printItems (depth + 1) items ++ newLine depth ++ "]"
  | .object [] => "\x7b\x7d"
  | .object members => "\x7b" ++ printMembers (depth + 1) members ++ newLine depth ++ "\x7d"

def printItems (depth : Nat) : List Json → String
  | [] => ""
  | [item] => newLine depth ++ item.print depth
  | item :: rest => newLine depth ++ item.print depth ++ "," ++ printItems depth rest

def printMembers (depth : Nat) : List (String × Json) → String
  | [] => ""
  | [(name, value)] => newLine depth ++ printedText name ++ ": " ++ value.print depth
  | (name, value) :: rest =>
      newLine depth ++ printedText name ++ ": " ++ value.print depth ++ "," ++
        printMembers depth rest

end

def render (document : Json) : String :=
  document.print 0

/-! ## Values as documents -/

def memberName : Scalar → String
  | .null => "null"
  | .flag value => if value then "true" else "false"
  | .whole value => toString value
  | .decimal tenths => Scalar.decimalText tenths
  | .text value => value

def ofScalar : Scalar → Json
  | .null => .null
  | .flag value => .flag value
  | .whole value => .whole value
  | .decimal tenths => .decimal tenths
  | .text value => .text value

mutual

def ofValue : Value → Json
  | .scalar scalar => ofScalar scalar
  | .list items => .array (ofValues items)
  | .mapping entries => .object (ofEntries entries)

def ofValues : List Value → List Json
  | [] => []
  | item :: rest => ofValue item :: ofValues rest

def ofEntries : List (Scalar × Value) → List (String × Json)
  | [] => []
  | (key, value) :: rest => (memberName key, ofValue value) :: ofEntries rest

end

mutual

def toValue : Json → Value
  | .null => .null
  | .flag value => .scalar (.flag value)
  | .whole value => .scalar (.whole value)
  | .decimal tenths => .scalar (.decimal tenths)
  | .text value => .text value
  | .array items => .list (toValues items)
  | .object members => .mapping (Entries.ofPairs (toEntries members))

def toValues : List Json → List Value
  | [] => []
  | item :: rest => item.toValue :: toValues rest

def toEntries : List (String × Json) → List (Scalar × Value)
  | [] => []
  | (name, value) :: rest => (.text name, value.toValue) :: toEntries rest

end

end Json

end FormulaLint
