import FormulaLint.Pattern.Fault

/-! The tokens of a written pattern: single characters, and characters behind a backslash. -/

namespace FormulaLint.Pattern

inductive Token where
  | plain (c : Char)
  | escaped (c : Char)
  /-- A backslash at the very end. -/
  | dangling
  deriving DecidableEq, Repr

namespace Token

def ofChars : List Char → List Token
  | [] => []
  | ['\\'] => [.dangling]
  | '\\' :: c :: rest => .escaped c :: ofChars rest
  | c :: rest => .plain c :: ofChars rest

def length : Token → Nat
  | .plain _ => 1
  | .escaped _ => 2
  | .dangling => 1

def text : Token → String
  | .plain c => c.toString
  | .escaped c => "\\" ++ c.toString
  | .dangling => "\\"

end Token

/-! ## Reading tokens -/

structure Flags where
  ignoreCase : Bool := false
  multipleLines : Bool := false
  dotAll : Bool := false
  deriving DecidableEq, Repr

/-- How far a pattern has been read: what is left, where it starts, the groups opened and closed so
far, the names given, and the flags in force. -/
structure Reader where
  tokens : List Token
  position : Nat
  groupCount : Nat := 0
  closed : List Nat := []
  names : List (String × Nat) := []
  flags : Flags := {}
  deriving DecidableEq, Repr

abbrev Reading := StateT Reader (Except Fault)

def fail {α : Type} (cause : FaultCause) (back : Nat) : Reading α := do
  throw ⟨cause, (← get).position - back⟩

def peek : Reading (Option Token) := do
  return (← get).tokens.head?

def refuseDangling : Reading Unit := do
  if (← peek) = some .dangling then fail .danglingEscape 0

def next : Reading (Option Token) := do
  let reader ← get
  match reader.tokens with
  | [] => return none
  | token :: rest =>
      set { reader with tokens := rest, position := reader.position + token.length }
      refuseDangling
      return some token

def accept (c : Char) : Reading Bool := do
  if (← peek) = some (.plain c) then
    let _ ← next
    return true
  else
    return false

def takeChars (admitted : Char → Bool) : Nat → Reading (List Char)
  | 0 => return []
  | count + 1 => do
      match ← peek with
      | some (.plain c) =>
          if admitted c then
            let _ ← next
            return c :: (← takeChars admitted count)
          else
            return []
      | _ => return []

def takeName (terminator : Char) : (fuel : Nat) → (taken : List Char) → Reading String
  | 0, _ => fail .endOfPattern 0
  | fuel + 1, taken => do
      match ← next with
      | none =>
          if taken.isEmpty then fail .missingGroupName 0
          else fail (.unterminatedName terminator) taken.length
      | some token =>
          if token = .plain terminator then
            if taken.isEmpty then fail .missingGroupName 1
            else return String.ofList taken
          else
            takeName terminator fuel (taken ++ token.text.toList)

end FormulaLint.Pattern
