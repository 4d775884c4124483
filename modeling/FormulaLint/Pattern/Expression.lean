import FormulaLint.Character.Blank
import FormulaLint.Character.Digit
import FormulaLint.Character.Lowercase
import FormulaLint.Character.Word

/-! Expressions of the pattern language: what a pattern written as text stands for. -/

namespace FormulaLint.Pattern

/-! ## Single characters -/

inductive CharClass where
  | digit
  | blank
  | word
  deriving DecidableEq, Repr

def CharClass.holds : CharClass → Char → Bool
  | .digit, c => Character.isDecimal c
  | .blank, c => Character.isBlank c
  | .word, c => Character.isWord c

inductive SetItem where
  | code (value : Nat)
  | range (first last : Nat)
  | named (charClass : CharClass) (negated : Bool)
  deriving DecidableEq, Repr

def SetItem.holds (ignoreCase : Bool) (c : Char) : SetItem → Bool
  | .code value =>
      if ignoreCase then (Character.caseVariants c.toNat).contains value else c.toNat == value
  | .range first last =>
      if ignoreCase then
        (Character.caseVariants c.toNat).any fun code => first ≤ code && code ≤ last
      else
        first ≤ c.toNat && c.toNat ≤ last
  | .named charClass negated => charClass.holds c != negated

inductive CharTest where
  | exactly (code : Nat) (ignoreCase : Bool)
  | any (acrossLines : Bool)
  | set (negated : Bool) (items : List SetItem) (ignoreCase : Bool)
  deriving DecidableEq, Repr

def CharTest.holds (c : Char) : CharTest → Bool
  | .exactly code ignoreCase => (SetItem.code code).holds ignoreCase c
  | .any acrossLines => acrossLines || c != '\n'
  | .set negated items ignoreCase => items.any (·.holds ignoreCase c) != negated

/-! ## Expressions -/

inductive Anchor where
  | textStart
  | textEnd
  | lineStart
  | lineEnd
  | lastLineEnd
  | wordEdge
  | noWordEdge
  deriving DecidableEq, Repr

inductive Greed where
  | most
  | least
  deriving DecidableEq, Repr

inductive Expression where
  | empty
  | char (test : CharTest)
  | anchor (place : Anchor)
  | sequence (first second : Expression)
  | either (first second : Expression)
  | repetition (body : Expression) (least : Nat) (most : Option Nat) (greed : Greed)
  /-- What the body matches is remembered under a number. -/
  | group (number : Nat) (body : Expression)
  /-- The text last remembered under a number. -/
  | recall (number : Nat) (ignoreCase : Bool)
  /-- The body matches here, or does not, and no character is taken. -/
  | ahead (negated : Bool) (body : Expression)
  /-- The first way in which the body matches is the only one. -/
  | commit (body : Expression)
  deriving DecidableEq, Repr

namespace Expression

def sequenceOf : List Expression → Expression
  | [] => .empty
  | [single] => single
  | first :: rest => .sequence first (sequenceOf rest)

def literal (text : String) : Expression :=
  sequenceOf (text.toList.map fun c => .char (.exactly c.toNat false))

end Expression

end FormulaLint.Pattern
