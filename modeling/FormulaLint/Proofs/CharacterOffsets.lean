import FormulaLint.Proofs.TreeImage
import Mathlib.Data.Prod.Lex

/-! Offsets in bytes, in characters, and as lines and columns. A byte offset leads to the number of
characters in front of it, whether it is looked up in a table or taken as it is, and a line and a
column grow with the offset that they are those of. -/

namespace FormulaLint.Text

variable {chars : List Char} {c : Char} {bytes laterBytes index offset later : Nat}

/-! ## Characters in front of a byte -/

private theorem byteLength_eq_length (chars : List Char) :
    byteLength chars = (chars.flatMap String.utf8EncodeChar).length := by
  induction chars with
  | nil => rfl
  | cons c rest induction => simp [byteLength, induction]

theorem byteLength_toList (text : String) : byteLength text.toList = text.toUTF8.size := by
  have encoded : (text.toList.flatMap String.utf8EncodeChar).toByteArray = text.toUTF8 :=
    String.utf8Encode_toList
  rw [byteLength_eq_length, ← encoded, List.size_toByteArray]

def wholeChars (chars : List Char) (bytes : Nat) : Nat :=
  (List.range chars.length).countP fun index => byteLength (chars.take (index + 1)) ≤ bytes

/-- The index of the character that each byte belongs to, for a text whose first character has the
given index, and behind the last byte the index that comes next. -/
def charTableFrom (first : Nat) : List Char → List Nat
  | [] => [first]
  | c :: rest => List.replicate c.utf8Size first ++ charTableFrom (first + 1) rest

def charTable (chars : List Char) : List Nat :=
  charTableFrom 0 chars

theorem wholeChars_cons (rest : List Char) :
    wholeChars (c :: rest) bytes =
      if bytes < c.utf8Size then 0 else wholeChars rest (bytes - c.utf8Size) + 1 := by
  simp only [wholeChars, List.length_cons, List.range_succ_eq_map, List.countP_cons,
    List.countP_map, Function.comp_def, Nat.succ_eq_add_one, List.take_succ_cons,
    List.take_zero, byteLength, Nat.add_zero, decide_eq_true_eq]
  by_cases short : bytes < c.utf8Size
  · have none : ∀ index : Nat, ¬c.utf8Size + byteLength (rest.take (index + 1)) ≤ bytes := by
      intro index
      omega
    simp [short, none]
  · have fewer : ∀ index : Nat, c.utf8Size + byteLength (rest.take (index + 1)) ≤ bytes ↔
        byteLength (rest.take (index + 1)) ≤ bytes - c.utf8Size := by
      intro index
      omega
    simp [short, fewer, Nat.le_of_not_lt short]

theorem wholeChars_mono (chars : List Char) (ordered : bytes ≤ laterBytes) :
    wholeChars chars bytes ≤ wholeChars chars laterBytes := by
  apply List.countP_mono_left
  intro index _ inFront
  simp only [decide_eq_true_eq] at inFront ⊢
  omega

/-- In front of a byte of a character there are just the characters before that one. -/
theorem wholeChars_of_inside (stands : chars[index]? = some c)
    (front : byteLength (chars.take index) ≤ bytes)
    (back : bytes < byteLength (chars.take index) + c.utf8Size) :
    wholeChars chars bytes = index := by
  induction index generalizing chars bytes with
  | zero =>
      cases chars with
      | nil => simp at stands
      | cons head rest =>
          simp only [List.getElem?_cons_zero, Option.some.injEq] at stands
          simp only [List.take_zero, byteLength, Nat.zero_add] at back
          rw [wholeChars_cons, stands, if_pos back]
  | succ index induction =>
      cases chars with
      | nil => simp at stands
      | cons head rest =>
          simp only [List.getElem?_cons_succ] at stands
          simp only [List.take_succ_cons, byteLength] at front back
          rw [wholeChars_cons, if_neg (by omega),
            induction stands (by omega) (by omega)]

/-! ## Looking up and taking as it is -/

private theorem charIndex_eq_wholeChars (within : bytes ≤ byteLength chars) :
    charIndex chars bytes = some (wholeChars chars bytes) := by
  induction chars generalizing bytes with
  | nil =>
      have none : bytes = 0 := Nat.le_zero.mp within
      rw [none]
      rfl
  | cons c rest induction =>
      rw [byteLength] at within
      rw [charIndex, wholeChars_cons]
      split
      · rfl
      · rw [induction (by omega), Option.map_some]

private theorem getElem?_charTableFrom (first : Nat) (chars : List Char) (bytes : Nat) :
    (charTableFrom first chars)[bytes]? = (charIndex chars bytes).map (first + ·) := by
  induction chars generalizing first bytes with
  | nil => cases bytes <;> simp [charTableFrom, charIndex]
  | cons c rest induction =>
      rw [charTableFrom, charIndex]
      split
      · next inside =>
          rw [List.getElem?_append_left (by simpa using inside)]
          simp [inside]
      · next beyond =>
          rw [List.getElem?_append_right (by simpa using beyond), List.length_replicate,
            induction, Option.map_map]
          congr 1
          funext index
          simp only [Function.comp_apply]
          omega

private theorem getElem?_charTable (chars : List Char) (bytes : Nat) :
    (charTable chars)[bytes]? = charIndex chars bytes := by
  rw [charTable, getElem?_charTableFrom]
  simp

theorem leadsTo_self (single : chars.length = byteLength chars) (within : bytes ≤ chars.length) :
    LeadsTo chars bytes bytes := by
  refine ⟨within, ?_⟩
  have parts := byteLength_append (chars.take bytes) (chars.drop bytes)
  have front := length_le_byteLength (chars.take bytes)
  have back := length_le_byteLength (chars.drop bytes)
  rw [List.take_append_drop] at parts
  rw [List.length_take] at front
  rw [List.length_drop] at back
  omega

theorem charIndex_self (single : chars.length = byteLength chars) (within : bytes ≤ chars.length) :
    charIndex chars bytes = some bytes := by
  have leads := leadsTo_self single within
  have found := charIndex_byteLength (chars.take bytes) (chars.drop bytes)
  rwa [List.take_append_drop, leads.2, List.length_take, Nat.min_eq_left within] at found

private theorem charOffset_eq_charIndex (within : bytes ≤ byteLength chars) :
    charOffset chars bytes = charIndex chars bytes := by
  rw [charOffset]
  split
  · next single => rw [charIndex_self single (by omega)]
  · rfl

/-! ## Lines and columns -/

/-- A line starts at an offset that is the first one, or follows a line feed, and goes on up to
another offset. -/
structure OpensLine (chars : List Char) (start offset : Nat) : Prop where
  ordered : start ≤ offset
  opens : start = 0 ∨ chars[start - 1]? = some '\n'
  plain : '\n' ∉ (chars.take offset).drop start

theorem opensLine_lineStart (chars : List Char) (offset : Nat) :
    OpensLine chars (lineStart chars offset) offset := by
  rcases exists_take_eq chars offset with ⟨whole, column, front, length, ends, plain⟩
  have ordered := lineStart_le chars offset
  refine ⟨ordered, ?_, ?_⟩
  · rcases ends with rfl | ⟨body, rfl⟩
    · exact .inl length.symm
    · right
      have last : (chars.take offset)[body.length]? = some '\n' := by
        rw [front]
        simp
      rw [List.length_append, List.length_singleton] at length
      rw [← length, Nat.add_sub_cancel, ← last, List.getElem?_take_of_lt (by omega)]
  · rw [front, ← length, List.drop_left]
    exact plain

theorem strictMono_lineAndColumn (chars : List Char) :
    StrictMono fun offset => toLex (lineAndColumn chars offset) := by
  intro offset later before
  rw [Prod.Lex.toLex_lt_toLex]
  by_cases plain : '\n' ∈ (chars.take later).drop offset
  · left
    have parted := List.take_append_drop offset (chars.take later)
    rw [List.take_take, Nat.min_eq_left (Nat.le_of_lt before)] at parted
    have feeds := congrArg (List.count '\n') parted
    rw [List.count_append] at feeds
    have some := List.count_pos_iff.mpr plain
    rw [lineAndColumn_eq, lineAndColumn_eq]
    show (chars.take offset).count '\n' + 1 < (chars.take later).count '\n' + 1
    omega
  · right
    rw [lineAndColumn_of_plain (Nat.le_of_lt before) plain]
    exact ⟨rfl, by simp only; omega⟩

/-! ## Offsets that are counted exactly -/

/-- Offsets are counted exactly in a text if a byte offset stands for the number of characters
entirely in front of it, as a table of all bytes has it, and a character offset for its line and
column, which are those of no other offset and stand in the same order. -/
structure CountsExactly (text : String) : Prop where
  counted : ∀ bytes ≤ text.toUTF8.size,
    charOffset text.toList bytes = some (wholeChars text.toList bytes)
  inside : ∀ (index : Nat) (c : Char) (bytes : Nat), text.toList[index]? = some c →
    byteLength (text.toList.take index) ≤ bytes →
      bytes < byteLength (text.toList.take index) + c.utf8Size →
        charOffset text.toList bytes = some index
  lookedUp : ∀ bytes ≤ text.toUTF8.size,
    charOffset text.toList bytes = (charTable text.toList)[bytes]?
  monotone : ∀ bytes laterBytes, bytes ≤ laterBytes → laterBytes ≤ text.toUTF8.size →
    ∃ offset later, charOffset text.toList bytes = some offset ∧
      charOffset text.toList laterBytes = some later ∧ offset ≤ later
  placed : ∀ offset ≤ text.length, ∃ start, OpensLine text.toList start offset ∧
    lineAndColumn text.toList offset = (1 + (text.toList.take offset).count '\n', offset - start)
  ordered : ∀ offset later, offset ≤ text.length → later ≤ text.length →
    (offset < later ↔
      toLex (lineAndColumn text.toList offset) < toLex (lineAndColumn text.toList later))
  injective : ∀ offset later, offset ≤ text.length → later ≤ text.length →
    lineAndColumn text.toList offset = lineAndColumn text.toList later → offset = later

private theorem byteLength_take_add_le (stands : chars[index]? = some c) :
    byteLength (chars.take index) + c.utf8Size ≤ byteLength chars := by
  have parts := byteLength_append (chars.take (index + 1)) (chars.drop (index + 1))
  rw [List.take_append_drop, List.take_add_one, stands, Option.toList_some, byteLength_append]
    at parts
  simp only [byteLength] at parts
  omega

/-- Offsets are counted exactly in every text, whether its characters take one byte each or more. -/
theorem countsExactly (text : String) : CountsExactly text := by
  have counted : ∀ bytes ≤ text.toUTF8.size,
      charOffset text.toList bytes = some (wholeChars text.toList bytes) := by
    intro bytes within
    rw [← byteLength_toList] at within
    rw [charOffset_eq_charIndex within, charIndex_eq_wholeChars within]
  constructor
  case counted => exact counted
  case inside =>
    intro index c bytes stands front back
    have within := byteLength_take_add_le stands
    rw [byteLength_toList] at within
    rw [counted bytes (by omega), wholeChars_of_inside stands front back]
  case lookedUp =>
    intro bytes within
    rw [← byteLength_toList] at within
    rw [charOffset_eq_charIndex within, getElem?_charTable]
  case monotone =>
    intro bytes laterBytes before within
    exact ⟨_, _, counted bytes (before.trans within), counted laterBytes within,
      wholeChars_mono text.toList before⟩
  case placed =>
    intro offset _
    refine ⟨lineStart text.toList offset, opensLine_lineStart text.toList offset, ?_⟩
    rw [lineAndColumn_eq, Nat.add_comm]
  case ordered =>
    intro offset later _ _
    exact (strictMono_lineAndColumn text.toList).lt_iff_lt.symm
  case injective =>
    intro offset later _ _ same
    exact (strictMono_lineAndColumn text.toList).injective (congrArg toLex same)

example : charTable "aé!".toList = [0, 1, 1, 2, 3] := by decide

end FormulaLint.Text
