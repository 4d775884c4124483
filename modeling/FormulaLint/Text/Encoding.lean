import FormulaLint.Text.Escape

/-! Texts as bytes. Reading bytes that are not UTF-8 names the first place where they cease to be,
and so does writing code points of which some stand for no character. -/

namespace FormulaLint.Text

/-! ## Reading bytes -/

inductive DecodeCause where
  | invalidStart
  | invalidContinuation
  | unexpectedEnd
  deriving DecidableEq, Repr

def DecodeCause.text : DecodeCause → String
  | .invalidStart => "invalid start byte"
  | .invalidContinuation => "invalid continuation byte"
  | .unexpectedEnd => "unexpected end of data"

/-- The bytes at which a reader stops: where they start, how many they are, and the first of them.
-/
structure DecodeFault where
  cause : DecodeCause
  start : Nat
  length : Nat
  lead : UInt8
  deriving DecidableEq, Repr

def DecodeFault.message (fault : DecodeFault) : String :=
  let place :=
    if fault.length = 1 then
      "byte 0x" ++ hexadecimal 2 fault.lead.toNat ++ " in position " ++ toString fault.start
    else
      "bytes in position " ++ toString fault.start ++ "-" ++
        toString (fault.start + fault.length - 1)
  "'utf-8' codec can't decode " ++ place ++ ": " ++ fault.cause.text

/-- A character of which some bytes are still to come; `low` and `high` bound the next one. -/
structure Unfinished where
  start : Nat
  lead : UInt8
  seen : Nat
  owed : Nat
  low : UInt8
  high : UInt8

/-- What a lead byte promises: how many bytes follow it and the bounds of the first of these. -/
def followers (lead : UInt8) : Option (Nat × UInt8 × UInt8) :=
  if lead < 0x80 then some (0, 0x80, 0xBF)
  else if lead < 0xC2 then none
  else if lead < 0xE0 then some (1, 0x80, 0xBF)
  else if lead < 0xF0 then
    some (2, if lead = 0xE0 then 0xA0 else 0x80, if lead = 0xED then 0x9F else 0xBF)
  else if lead < 0xF5 then
    some (3, if lead = 0xF0 then 0x90 else 0x80, if lead = 0xF4 then 0x8F else 0xBF)
  else none

def faultAfter (position : Nat) : Option Unfinished → List UInt8 → Option DecodeFault
  | none, [] => none
  | some character, [] =>
      some ⟨.unexpectedEnd, character.start, character.seen, character.lead⟩
  | none, byte :: rest =>
      match followers byte with
      | none => some ⟨.invalidStart, position, 1, byte⟩
      | some (0, _, _) => faultAfter (position + 1) none rest
      | some (owed, low, high) =>
          faultAfter (position + 1) (some ⟨position, byte, 1, owed, low, high⟩) rest
  | some character, byte :: rest =>
      if byte < character.low || character.high < byte then
        some ⟨.invalidContinuation, character.start, character.seen, character.lead⟩
      else if character.owed ≤ 1 then
        faultAfter (position + 1) none rest
      else
        let next := { character with
          seen := character.seen + 1, owed := character.owed - 1, low := 0x80, high := 0xBF }
        faultAfter (position + 1) (some next) rest

/-- The text that the bytes encode, or the first fault in them. -/
def decode (bytes : ByteArray) : Except DecodeFault String :=
  match String.fromUTF8? bytes with
  | some text => .ok text
  | none => .error ((faultAfter 0 none bytes.toList).getD ⟨.unexpectedEnd, bytes.size, 0, 0⟩)

/-! ## Writing code points -/

structure EncodeFault where
  start : Nat
  length : Nat
  code : Nat
  deriving DecidableEq, Repr

def EncodeFault.message (fault : EncodeFault) : String :=
  let place :=
    if fault.length = 1 then
      "character '" ++ escapedCode fault.code ++ "' in position " ++ toString fault.start
    else
      "characters in position " ++ toString fault.start ++ "-" ++
        toString (fault.start + fault.length - 1)
  "'utf-8' codec can't encode " ++ place ++ ": surrogates not allowed"

def isSurrogate (code : Nat) : Bool :=
  0xD800 ≤ code && code ≤ 0xDFFF

/-- The text with the given code points, read from a position on, or the first run of surrogates. -/
def ofCodePointsAt (position : Nat) : List Nat → Except EncodeFault (List Char)
  | [] => .ok []
  | code :: rest =>
      if isSurrogate code then
        .error ⟨position, (rest.takeWhile isSurrogate).length + 1, code⟩
      else
        (ofCodePointsAt (position + 1) rest).map (Char.ofNat code :: ·)

def ofCodePoints (codes : List Nat) : Except EncodeFault String :=
  (ofCodePointsAt 0 codes).map String.ofList

end FormulaLint.Text
