import FormulaLint.Rules.Flag
import Mathlib.Data.List.TakeWhile

/-! Markers of flags: the words and dashes that are written in front of an option. Each reading of a
flag takes one marker off its front and keeps the first line of what is behind the marker. -/

namespace FormulaLint.Flag

variable {front back chars flag tail left : List Char} {word : String}

/-! ## First lines -/

theorem not_mem_firstLine (chars : List Char) : '\n' ∉ firstLine chars := by
  intro member
  have plain := List.mem_takeWhile_imp member
  simp at plain

theorem firstLine_append (plain : '\n' ∉ front) :
    firstLine (front ++ back) = front ++ firstLine back :=
  Text.takeWhile_append_of_notMem plain back

theorem firstLine_eq_self_iff : firstLine chars = chars ↔ '\n' ∉ chars := by
  constructor
  · intro whole
    rw [← whole]
    exact not_mem_firstLine chars
  · intro plain
    have whole : firstLine (chars ++ []) = chars ++ [] := firstLine_append plain
    rwa [List.append_nil] at whole

/-- What stands behind the first line: nothing, or a line feed and more. -/
def furtherLines (chars : List Char) : List Char :=
  chars.dropWhile (· != '\n')

theorem firstLine_append_furtherLines (chars : List Char) :
    firstLine chars ++ furtherLines chars = chars :=
  List.takeWhile_append_dropWhile

theorem furtherLines_eq_nil_iff : furtherLines chars = [] ↔ '\n' ∉ chars := by
  rw [← firstLine_eq_self_iff]
  constructor
  · intro none
    simpa [none] using firstLine_append_furtherLines chars
  · intro whole
    have rest := firstLine_append_furtherLines chars
    simpa [whole] using rest

theorem eq_nil_or_exists_of_furtherLines (chars : List Char) :
    furtherLines chars = [] ∨ ∃ later, furtherLines chars = '\n' :: later := by
  cases rest : furtherLines chars with
  | nil => exact .inl rfl
  | cons c later =>
      have stopped := List.head?_dropWhile_not (· != '\n') chars
      rw [← furtherLines, rest, List.head?_cons] at stopped
      have lineFeed : c = '\n' := by simpa using stopped
      exact .inr ⟨later, by rw [lineFeed]⟩

theorem firstLine_furtherLines (chars : List Char) : firstLine (furtherLines chars) = [] := by
  rcases eq_nil_or_exists_of_furtherLines chars with rest | ⟨later, rest⟩
  all_goals
    rw [rest]
    rfl

theorem furtherLines_furtherLines (chars : List Char) :
    furtherLines (furtherLines chars) = furtherLines chars := by
  rcases eq_nil_or_exists_of_furtherLines chars with rest | ⟨later, rest⟩
  all_goals
    rw [rest]
    rfl

theorem furtherLines_append (plain : '\n' ∉ front) :
    furtherLines (front ++ back) = furtherLines back := by
  apply List.dropWhile_append_of_pos
  intro c member
  rw [bne_iff_ne]
  rintro rfl
  exact plain member

/-! ## Markers -/

def wordMarkers (word : String) : List (List Char) :=
  [[], ['-'], ['-', '-']].map (· ++ word.toList ++ ['-'])

theorem afterWord?_eq_some_iff :
    afterWord? word chars = some tail ↔ chars = word.toList ++ ['-'] ++ tail :=
  Text.stripFront_eq_some_iff

theorem afterWord?_dropDashes_eq_some_iff {letter : Char} {letters : List Char}
    (spelled : word.toList = letter :: letters) (noDash : letter ≠ '-') :
    afterWord? word (dropDashes flag) = some tail ↔
      ∃ marker ∈ wordMarkers word, flag = marker ++ tail := by
  rw [afterWord?_eq_some_iff]
  fun_cases dropDashes flag with
  | case1 rest => simp [wordMarkers, spelled, noDash.symm]
  | case2 rest single =>
      have other (more : List Char) : rest ≠ '-' :: more := single more
      simp [wordMarkers, spelled, noDash.symm, other]
  | case3 flag _ none =>
      have other (more : List Char) : flag ≠ '-' :: more := none more
      simp [wordMarkers, spelled, other]

def words : List String := ["with", "without"]

theorem repeated?_eq_some_iff (known : word ∈ words) :
    repeated? word flag = some left ↔
      ∃ marker ∈ wordMarkers word, ∃ tail, flag = marker ++ tail ∧ firstLine tail = left := by
  have spelled : ∃ letter letters, word.toList = letter :: letters ∧ letter ≠ '-' := by
    simp only [words, List.mem_cons, List.not_mem_nil, or_false] at known
    rcases known with rfl | rfl
    · exact ⟨'w', "ith".toList, by decide⟩
    · exact ⟨'w', "ithout".toList, by decide⟩
  rcases spelled with ⟨letter, letters, spelled, noDash⟩
  simp only [repeated?, Option.map_eq_some_iff, afterWord?_dropDashes_eq_some_iff spelled noDash]
  constructor
  · rintro ⟨tail, ⟨marker, listed, equal⟩, line⟩
    exact ⟨marker, listed, tail, equal, line⟩
  · rintro ⟨marker, listed, tail, equal, line⟩
    exact ⟨tail, ⟨marker, listed, equal⟩, line⟩

example : repeated? "with" "--with-x\ny".toList = some ['x'] := by decide

theorem worded?_eq_some_iff :
    worded? flag = some (word, left) ↔
      word ∈ words ∧ ∃ tail, flag = word.toList ++ ['-'] ++ tail ∧ firstLine tail = left := by
  rw [worded?]
  constructor
  · intro worded
    split at worded
    · next tail found =>
        cases worded
        exact ⟨List.mem_cons_self, tail, afterWord?_eq_some_iff.mp found, rfl⟩
    · rcases Option.map_eq_some_iff.mp worded with ⟨tail, found, equal⟩
      cases equal
      exact ⟨by decide, tail, afterWord?_eq_some_iff.mp found, rfl⟩
  · rintro ⟨known, tail, equal, rfl⟩
    have found := afterWord?_eq_some_iff.mpr equal
    simp only [words, List.mem_cons, List.not_mem_nil, or_false] at known
    rcases known with rfl | rfl
    · rw [found]
    · have other : afterWord? "with" flag = none := by
        rw [equal]
        rfl
      rw [other, found]
      rfl

theorem dashed?_eq_some_iff :
    dashed? flag = some left ↔
      ∃ tail, flag = ['-', '-'] ++ tail ∧ (furtherLines tail).length ≤ 1 ∧
        firstLine tail = left := by
  rw [dashed?]
  split
  · next none =>
      simp only [reduceCtorEq, false_iff, not_exists, not_and]
      rintro tail rfl
      rw [Text.stripFront_append] at none
      cases none
  · next rest found =>
      rw [Text.stripFront_eq_some_iff] at found
      subst found
      simp [furtherLines]

end FormulaLint.Flag
