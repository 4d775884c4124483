import FormulaLint.Text.Lines

/-! From byte offsets to characters. A grammar counts the bytes of a text, everything else here
counts its characters. -/

namespace FormulaLint.Text

def byteLength : List Char → Nat
  | [] => 0
  | c :: rest => c.utf8Size + byteLength rest

/-- The index of the character that holds the byte at an offset, the end of the text included; none
beyond it. -/
def charIndex : List Char → Nat → Option Nat
  | [], 0 => some 0
  | [], _ + 1 => none
  | c :: rest, offset =>
      if offset < c.utf8Size then some 0
      else (charIndex rest (offset - c.utf8Size)).map (· + 1)

/-- The same for any text. Where every character is one byte, offsets are taken as they are, even
those beyond the end. -/
def charOffset (chars : List Char) (offset : Nat) : Option Nat :=
  if chars.length = byteLength chars then some offset else charIndex chars offset

theorem byteLength_append (front back : List Char) :
    byteLength (front ++ back) = byteLength front + byteLength back := by
  induction front with
  | nil => exact (Nat.zero_add _).symm
  | cons c rest induction => rw [List.cons_append, byteLength, byteLength, induction, Nat.add_assoc]

theorem length_le_byteLength (chars : List Char) : chars.length ≤ byteLength chars := by
  induction chars with
  | nil => exact Nat.le_refl 0
  | cons c rest induction =>
      have some := c.utf8Size_pos
      rw [List.length_cons, byteLength]
      omega

theorem charIndex_byteLength (front back : List Char) :
    charIndex (front ++ back) (byteLength front) = some front.length := by
  induction front with
  | nil =>
      cases back with
      | nil => rfl
      | cons c rest => exact if_pos c.utf8Size_pos
  | cons c rest induction =>
      rw [List.cons_append, byteLength, charIndex, if_neg (by omega), Nat.add_sub_cancel_left,
        induction]
      rfl

theorem charOffset_byteLength (front back : List Char) :
    charOffset (front ++ back) (byteLength front) = some front.length := by
  unfold charOffset
  split
  · next single =>
      have frontBound := length_le_byteLength front
      have backBound := length_le_byteLength back
      rw [List.length_append, byteLength_append] at single
      congr 1
      omega
  · exact charIndex_byteLength front back

example : charOffset "aé!".toList 3 = some 2 ∧ charOffset "aé!".toList 2 = some 1 := by decide

example : charOffset "abc".toList 9 = some 9 ∧ charOffset "abé".toList 9 = none := by decide

end FormulaLint.Text
