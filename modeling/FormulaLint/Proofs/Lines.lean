import FormulaLint.Text.Lines
import Mathlib.Data.List.TakeWhile

/-! Lines as they are counted and lines as they are shown. The line of an offset is given by the
line feeds in front of it: their number is the number of the line, and the last one stands right
before the line. Among the shown lines there are more in front of it, one for each further mark. -/

namespace FormulaLint.Text

/-! ## Where a line starts -/

def rawLine (chars : List Char) (offset : Nat) : List Char :=
  (chars.drop (lineStart chars offset)).takeWhile (· != '\n')

def EndsLine (chars : List Char) : Prop :=
  chars = [] ∨ ∃ body, chars = body ++ ['\n']

/-- What stands in front of an offset are whole lines and the front of the line of the offset. -/
theorem exists_take_eq (chars : List Char) (offset : Nat) :
    ∃ whole column, chars.take offset = whole ++ column ∧
      whole.length = lineStart chars offset ∧ EndsLine whole ∧ '\n' ∉ column := by
  have parts := List.takeWhile_append_dropWhile
    (p := (· != '\n')) (l := (chars.take offset).reverse)
  refine ⟨((chars.take offset).reverse.dropWhile (· != '\n')).reverse,
    ((chars.take offset).reverse.takeWhile (· != '\n')).reverse, ?_, List.length_reverse, ?_, ?_⟩
  · rw [← List.reverse_append, parts, List.reverse_reverse]
  · cases rest : (chars.take offset).reverse.dropWhile (· != '\n') with
    | nil => exact .inl rfl
    | cons c others =>
        have stopped := List.head?_dropWhile_not (· != '\n') (chars.take offset).reverse
        rw [rest] at stopped
        have newline : c = '\n' := by simpa using stopped
        exact .inr ⟨others.reverse, by rw [newline, List.reverse_cons]⟩
  · rw [List.mem_reverse]
    intro member
    have passed := List.mem_takeWhile_imp member
    simp at passed

/-! ## Line starts in order -/

theorem lineStartsFrom_append (position : Nat) (front back : List Char) :
    lineStartsFrom position (front ++ back) =
      lineStartsFrom position front ++ lineStartsFrom (position + front.length) back := by
  induction front generalizing position with
  | nil => rfl
  | cons c rest induction =>
      have next : position + 1 + rest.length = position + (c :: rest).length := by
        rw [List.length_cons]
        omega
      simp only [List.cons_append, lineStartsFrom, induction, next]
      split <;> rfl

theorem length_lineStartsFrom (position : Nat) (chars : List Char) :
    (lineStartsFrom position chars).length = chars.count '\n' := by
  induction chars generalizing position with
  | nil => rfl
  | cons c rest induction =>
      rw [lineStartsFrom, List.count_cons]
      split
      · next newline => rw [List.length_cons, induction, newline, if_pos (beq_self_eq_true _)]
      · next other => rw [induction, if_neg (by simpa using other), Nat.add_zero]

theorem mem_lineStartsFrom {position start : Nat} {chars : List Char}
    (member : start ∈ lineStartsFrom position chars) :
    position < start ∧ start ≤ position + chars.length := by
  induction chars generalizing position with
  | nil => cases member
  | cons c rest induction =>
      rw [List.length_cons]
      rw [lineStartsFrom] at member
      split at member
      · rcases List.mem_cons.mp member with rfl | later
        · omega
        · have bounds := induction later
          omega
      · have bounds := induction member
        omega

theorem countUpTo_append {front back : List Nat} {bound : Nat}
    (reached : ∀ value ∈ front, value ≤ bound) (beyond : ∀ value ∈ back, bound < value) :
    countUpTo (front ++ back) bound = front.length := by
  have none : back.takeWhile (· ≤ bound) = [] := by
    cases back with
    | nil => rfl
    | cons head tail =>
        have above := beyond head List.mem_cons_self
        exact List.takeWhile_cons_of_neg (by simpa using above)
  have passed : ∀ value ∈ front, decide (value ≤ bound) = true :=
    fun value member => decide_eq_true (reached value member)
  rw [countUpTo, List.takeWhile_append_of_pos passed, none, List.append_nil]

theorem getElem?_lineStarts {whole : List Char} (ends : EndsLine whole) (back : List Nat) :
    (0 :: lineStartsFrom 0 whole ++ back)[whole.count '\n']? = some whole.length := by
  rcases ends with rfl | ⟨body, rfl⟩
  · rfl
  · have last : lineStartsFrom 0 (body ++ ['\n']) = lineStartsFrom 0 body ++ [body.length + 1] := by
      rw [lineStartsFrom_append, Nat.zero_add]
      rfl
    have index : (body ++ ['\n']).count '\n' = (lineStartsFrom 0 body).length + 1 := by
      rw [List.count_append, length_lineStartsFrom]
      rfl
    rw [last, index, List.length_append, List.length_singleton, List.cons_append,
      List.getElem?_cons_succ, List.append_assoc, List.getElem?_append_right (Nat.le_refl _)]
    simp

/-- The line of an offset is one more than the number of line feeds in front of it, and the column
is counted from the last of them. -/
theorem lineAndColumn_eq (chars : List Char) (offset : Nat) :
    lineAndColumn chars offset =
      ((chars.take offset).count '\n' + 1, offset - lineStart chars offset) := by
  rcases exists_take_eq chars offset with ⟨whole, column, front, length, ends, plain⟩
  have noneInColumn : lineStartsFrom whole.length column = [] := by
    rw [← List.length_eq_zero_iff, length_lineStartsFrom, List.count_eq_zero]
    exact plain
  have starts : lineStartsFrom 0 (chars.take offset) = lineStartsFrom 0 whole := by
    rw [front, lineStartsFrom_append, Nat.zero_add, noneInColumn, List.append_nil]
  have feeds : (chars.take offset).count '\n' = whole.count '\n' := by
    rw [← length_lineStartsFrom 0, starts, length_lineStartsFrom]
  have all : lineStarts chars =
      0 :: lineStartsFrom 0 whole ++
        lineStartsFrom (chars.take offset).length (chars.drop offset) := by
    have parts := lineStartsFrom_append 0 (chars.take offset) (chars.drop offset)
    rw [List.take_append_drop, starts, Nat.zero_add] at parts
    rw [lineStarts, parts, List.cons_append]
  have row : countUpTo (lineStarts chars) offset = whole.count '\n' + 1 := by
    rw [all, countUpTo_append, List.length_cons, length_lineStartsFrom]
    · intro start member
      rcases List.mem_cons.mp member with rfl | later
      · exact Nat.zero_le offset
      · rw [← starts] at later
        have bounds := (mem_lineStartsFrom later).2
        rw [List.length_take] at bounds
        omega
    · intro start member
      have bounds := mem_lineStartsFrom member
      rw [List.length_take, List.length_drop] at bounds
      omega
  simp only [lineAndColumn]
  rw [row, Nat.add_sub_cancel, feeds, all, getElem?_lineStarts ends, Option.getD_some, length]

theorem lineStart_le (chars : List Char) (offset : Nat) : lineStart chars offset ≤ offset := by
  rcases exists_take_eq chars offset with ⟨whole, column, front, length, -, -⟩
  have bounds := congrArg List.length front
  rw [List.length_take, List.length_append] at bounds
  omega

theorem lineAndColumn_of_plain {chars : List Char} {start offset : Nat} (ordered : start ≤ offset)
    (plain : '\n' ∉ (chars.take offset).drop start) :
    lineAndColumn chars offset =
      ((lineAndColumn chars start).1, (lineAndColumn chars start).2 + (offset - start)) := by
  have parted := (List.take_append_drop start (chars.take offset)).symm
  rw [List.take_take, Nat.min_eq_left ordered] at parted
  have feeds : (chars.take offset).count '\n' = (chars.take start).count '\n' := by
    rw [parted, List.count_append, List.count_eq_zero.mpr plain, Nat.add_zero]
  have sameStart : lineStart chars offset = lineStart chars start := by
    rw [lineStart, parted, List.reverse_append, List.dropWhile_append_of_pos, lineStart]
    intro c member
    rw [bne_iff_ne]
    rintro rfl
    exact plain (List.mem_reverse.mp member)
  have inFront := lineStart_le chars start
  rw [lineAndColumn_eq, lineAndColumn_eq, feeds, sameStart, Prod.mk.injEq]
  exact ⟨rfl, by omega⟩

/-! ## Shown lines -/

def breaksLine (c : Char) : Bool :=
  lineBreaks.contains c

def joins (c : Char) (rest : List Char) : Bool :=
  c == '\r' && rest.head? == some '\n'

/-- How many shown lines end where no line feed does. -/
def strayBreaks : List Char → Nat
  | [] => 0
  | c :: rest =>
      if breaksLine c && c != '\n' && !joins c rest then strayBreaks rest + 1
      else strayBreaks rest

section

variable {c : Char} {rest : List Char}

theorem joins_iff : joins c rest = true ↔ c = '\r' ∧ ∃ others, rest = '\n' :: others := by
  rw [joins, Bool.and_eq_true, beq_iff_eq, beq_iff_eq, List.head?_eq_some_iff]

variable (current : List Char)

theorem linesAfter_of_joins (joined : joins c rest = true) :
    linesAfter current (c :: rest) = linesAfter current rest := by
  rcases joins_iff.mp joined with ⟨rfl, others, rfl⟩
  rfl

theorem linesAfter_of_breaks (breaks : breaksLine c = true) (apart : joins c rest = false) :
    linesAfter current (c :: rest) = String.ofList current.reverse :: linesAfter [] rest := by
  rw [linesAfter]
  · exact if_pos breaks
  · rintro others rfl rfl
    cases apart

theorem linesAfter_of_plain (plain : breaksLine c = false) :
    linesAfter current (c :: rest) = linesAfter (c :: current) rest := by
  rw [linesAfter]
  · exact if_neg (ne_true_of_eq_false plain)
  · rintro others rfl rfl
    cases plain

end

theorem exists_linesAfter_append (current body rest : List Char) :
    ∃ shown, linesAfter current (body ++ '\n' :: rest) = shown ++ linesAfter [] rest ∧
      shown.length = (body ++ ['\n']).count '\n' + strayBreaks (body ++ ['\n']) := by
  induction body generalizing current with
  | nil => exact ⟨[String.ofList current.reverse], rfl, rfl⟩
  | cons c tail induction =>
      have sameHead : joins c (tail ++ ['\n']) = joins c (tail ++ '\n' :: rest) := by
        cases tail <;> rfl
      rw [List.cons_append, List.cons_append, strayBreaks, List.count_cons, sameHead]
      cases joined : joins c (tail ++ '\n' :: rest) with
      | true =>
          have other : c ≠ '\n' := by
            rintro rfl
            cases joined
          rcases induction current with ⟨shown, equal, length⟩
          rw [linesAfter_of_joins current joined]
          exact ⟨shown, equal, by simpa [other] using length⟩
      | false =>
          cases breaks : breaksLine c with
          | true =>
              rcases induction [] with ⟨shown, equal, length⟩
              rw [linesAfter_of_breaks current breaks joined, equal]
              refine ⟨String.ofList current.reverse :: shown, rfl, ?_⟩
              rw [List.length_cons, length]
              by_cases feed : c = '\n'
              · simp only [feed, bne_self_eq_false, beq_self_eq_true, Bool.and_false,
                  Bool.false_and, Bool.false_eq_true, if_false, if_true]
                omega
              · simp [feed]
                omega
          | false =>
              have other : c ≠ '\n' := by
                rintro rfl
                cases breaks
              rcases induction (c :: current) with ⟨shown, equal, length⟩
              rw [linesAfter_of_plain current breaks]
              exact ⟨shown, equal, by simpa [other] using length⟩

theorem getElem?_zero_linesAfter (current rest : List Char) :
    ((linesAfter current rest)[0]?).getD "" =
      String.ofList (current.reverse ++ rest.takeWhile fun c => !breaksLine c) := by
  induction rest generalizing current with
  | nil => cases current <;> simp [linesAfter]
  | cons c rest induction =>
      cases breaks : breaksLine c with
      | false =>
          rw [linesAfter_of_plain current breaks, induction,
            List.takeWhile_cons_of_pos (by rw [breaks]; rfl), List.reverse_cons,
            List.append_assoc, List.singleton_append]
      | true =>
          rw [List.takeWhile_cons_of_neg (by rw [breaks]; exact Bool.false_ne_true),
            List.append_nil]
          cases joined : joins c rest with
          | true =>
              rcases joins_iff.mp joined with ⟨-, others, rfl⟩
              have feed : breaksLine '\n' = true := rfl
              rw [linesAfter_of_joins current joined, induction, List.takeWhile_cons_of_neg
                (by rw [feed]; exact Bool.false_ne_true), List.append_nil]
          | false =>
              rw [linesAfter_of_breaks current breaks joined]
              rfl

theorem breaksLine_eq_false_of_mem_linesAfter {current rest : List Char} {line : String}
    (plain : ∀ c ∈ current, breaksLine c = false) (member : line ∈ linesAfter current rest) :
    ∀ c ∈ line.toList, breaksLine c = false := by
  induction rest generalizing current with
  | nil =>
      rw [linesAfter] at member
      split at member
      · cases member
      · rw [List.mem_singleton] at member
        rw [member, String.toList_ofList]
        intro c inside
        exact plain c (List.mem_reverse.mp inside)
  | cons c rest induction =>
      cases breaks : breaksLine c with
      | false =>
          rw [linesAfter_of_plain current breaks] at member
          exact induction (List.forall_mem_cons.mpr ⟨breaks, plain⟩) member
      | true =>
          cases joined : joins c rest with
          | true =>
              rw [linesAfter_of_joins current joined] at member
              exact induction plain member
          | false =>
              rw [linesAfter_of_breaks current breaks joined] at member
              rcases List.mem_cons.mp member with rfl | later
              · rw [String.toList_ofList]
                intro c inside
                exact plain c (List.mem_reverse.mp inside)
              · exact induction (List.forall_mem_nil _) later

/-! ## Both kinds of line -/

theorem rawLine_eq_append {chars whole column : List Char} {offset : Nat}
    (front : chars.take offset = whole ++ column) (length : whole.length = lineStart chars offset)
    (plain : '\n' ∉ column) :
    rawLine chars offset = column ++ (chars.drop offset).takeWhile (· != '\n') := by
  have parts : chars = whole ++ (column ++ chars.drop offset) := by
    rw [← List.append_assoc, ← front, List.take_append_drop]
  have behind : chars.drop (lineStart chars offset) = column ++ chars.drop offset := by
    rw [← length]
    exact (congrArg (List.drop whole.length) parts).trans List.drop_left
  have passed : ∀ c ∈ column, (c != '\n') = true := by
    intro c member
    rw [bne_iff_ne]
    rintro rfl
    exact plain member
  rw [rawLine, behind, List.takeWhile_append_of_pos passed]

theorem getElem?_rawLine {chars : List Char} {offset : Nat} {c : Char}
    (stands : chars[offset]? = some c) (other : c ≠ '\n') :
    (rawLine chars offset)[offset - lineStart chars offset]? = some c := by
  rcases exists_take_eq chars offset with ⟨whole, column, front, length, -, plain⟩
  rcases List.getElem?_eq_some_iff.mp stands with ⟨inside, equal⟩
  have column_length : offset - lineStart chars offset = column.length := by
    have lengths := congrArg List.length front
    rw [List.length_take, List.length_append] at lengths
    omega
  rw [rawLine_eq_append front length plain, column_length,
    List.getElem?_append_right (Nat.le_refl _), Nat.sub_self, List.drop_eq_getElem_cons inside,
    equal, List.takeWhile_cons_of_pos (by simpa using other)]
  rfl

theorem exists_linesAfter_of_endsLine {whole : List Char} (ends : EndsLine whole)
    (rest : List Char) :
    ∃ shown, linesAfter [] (whole ++ rest) = shown ++ linesAfter [] rest ∧
      shown.length = whole.count '\n' + strayBreaks whole := by
  rcases ends with rfl | ⟨body, rfl⟩
  · exact ⟨[], rfl, rfl⟩
  · rw [List.append_assoc, List.singleton_append]
    exact exists_linesAfter_append [] body rest

theorem takeWhile_not_breaksLine {chars : List Char}
    (plain : ∀ c ∈ chars.takeWhile (· != '\n'), breaksLine c = false) :
    chars.takeWhile (fun c => !breaksLine c) = chars.takeWhile (· != '\n') := by
  induction chars with
  | nil => rfl
  | cons c rest induction =>
      by_cases feed : c = '\n'
      · rw [feed]
        rfl
      · have passed : (c :: rest).takeWhile (· != '\n') = c :: rest.takeWhile (· != '\n') :=
          List.takeWhile_cons_of_pos (bne_iff_ne.mpr feed)
        rw [passed] at plain ⊢
        rcases List.forall_mem_cons.mp plain with ⟨unbroken, later⟩
        rw [List.takeWhile_cons_of_pos (by rw [unbroken]; rfl), induction later]

/-- A line that holds no mark is shown as it is, as many lines behind its number as there are stray
breaks in front of it. -/
theorem getElem?_lines_of_plain {text : String} {offset : Nat}
    (plain : ∀ c ∈ rawLine text.toList offset, breaksLine c = false) :
    ((lines text)[(text.toList.take offset).count '\n' +
        strayBreaks (text.toList.take (lineStart text.toList offset))]?).getD "" =
      String.ofList (rawLine text.toList offset) := by
  rcases exists_take_eq text.toList offset with ⟨whole, column, front, length, ends, noFeed⟩
  have wholeEq : text.toList.take (lineStart text.toList offset) = whole := by
    have within : whole.length ≤ offset := by
      have lengths := congrArg List.length front
      rw [List.length_take, List.length_append] at lengths
      omega
    rw [← length, ← Nat.min_eq_left within, ← List.take_take, front]
    exact List.take_left
  have parts := List.take_append_drop (lineStart text.toList offset) text.toList
  rw [wholeEq] at parts
  have feeds : (text.toList.take offset).count '\n' = whole.count '\n' := by
    rw [front, List.count_append, List.count_eq_zero.mpr noFeed, Nat.add_zero]
  rcases exists_linesAfter_of_endsLine ends (text.toList.drop (lineStart text.toList offset))
      with ⟨shown, equal, shownLength⟩
  rw [parts] at equal
  rw [lines, equal, feeds, wholeEq, ← shownLength, List.getElem?_append_right (Nat.le_refl _),
    Nat.sub_self, getElem?_zero_linesAfter, List.reverse_nil, List.nil_append,
    takeWhile_not_breaksLine plain]
  rfl

end FormulaLint.Text
