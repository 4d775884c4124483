import FormulaLint.Proofs.CharacterOffsets
import FormulaLint.Proofs.RuleDrafts

/-! Deletions and the lines of a text. A statement that has its lines to itself is deleted with these
lines, and all other lines stay as they are; otherwise nothing but the statement is deleted. -/

namespace FormulaLint

namespace Text

variable {chars front : List Char} {start stop first last offset : Nat}

/-! ## Whole lines -/

/-- The lines of a text, each with the line feed that ends it. Only the last line can be without
one. -/
def wholeLines : List Char → List (List Char)
  | [] => []
  | c :: rest =>
      if c = '\n' then [c] :: wholeLines rest
      else
        match wholeLines rest with
        | [] => [[c]]
        | line :: others => (c :: line) :: others

theorem flatten_wholeLines (chars : List Char) : (wholeLines chars).flatten = chars := by
  induction chars with
  | nil => rfl
  | cons c rest induction =>
      rw [wholeLines]
      split
      · simp [induction]
      · split
        · next none => simpa [none] using induction
        · next line others some => simpa [some] using induction

theorem wholeLines_ne_nil (some : chars ≠ []) : wholeLines chars ≠ [] := by
  intro none
  have empty := flatten_wholeLines chars
  rw [none] at empty
  exact some empty.symm

theorem wholeLines_append_feed (body rest : List Char) :
    wholeLines (body ++ '\n' :: rest) = wholeLines (body ++ ['\n']) ++ wholeLines rest := by
  induction body with
  | nil => rfl
  | cons c tail induction =>
      simp only [List.cons_append, wholeLines, induction]
      split
      · rfl
      · cases lines : wholeLines (tail ++ ['\n']) with
        | nil => exact absurd lines (wholeLines_ne_nil (by simp))
        | cons line others => rfl

theorem wholeLines_append (ends : EndsLine front) (back : List Char) :
    wholeLines (front ++ back) = wholeLines front ++ wholeLines back := by
  rcases ends with rfl | ⟨body, rfl⟩
  · rfl
  · rw [List.append_assoc, List.singleton_append]
    exact wholeLines_append_feed body back

theorem length_wholeLines_feed (body : List Char) :
    (wholeLines (body ++ ['\n'])).length = body.count '\n' + 1 := by
  induction body with
  | nil => rfl
  | cons c tail induction =>
      rw [List.cons_append, wholeLines, List.count_cons]
      split
      · next feed => simp [feed, induction]
      · next other =>
          cases lines : wholeLines (tail ++ ['\n']) with
          | nil => exact absurd lines (wholeLines_ne_nil (by simp))
          | cons line others =>
              rw [lines] at induction
              simpa [other] using induction

theorem length_wholeLines (ends : EndsLine chars) :
    (wholeLines chars).length = chars.count '\n' := by
  rcases ends with rfl | ⟨body, rfl⟩
  · rfl
  · rw [length_wholeLines_feed, List.count_append]
    rfl

theorem length_wholeLines_le (chars : List Char) :
    (wholeLines chars).length ≤ chars.count '\n' + 1 := by
  induction chars with
  | nil => exact Nat.zero_le 1
  | cons c rest induction =>
      rw [wholeLines, List.count_cons]
      split
      · next feed => simp [feed, induction]
      · cases lines : wholeLines rest with
        | nil => simp
        | cons line others =>
            rw [lines] at induction
            simp only [List.length_cons] at induction ⊢
            omega

/-! ## The lines around a stretch -/

def lineFront (chars : List Char) (offset : Nat) : List Char :=
  ((chars.take offset).reverse.takeWhile (· != '\n')).reverse

def lineRest (chars : List Char) (offset : Nat) : List Char :=
  (chars.drop offset).takeWhile (· != '\n')

/-- The line of an offset goes on up to another offset, which is the end of the text or follows a
line feed. -/
structure ClosesLine (chars : List Char) (stop offset : Nat) : Prop where
  ordered : offset ≤ stop
  within : stop ≤ chars.length
  closes : (stop = chars.length ∧ '\n' ∉ chars.drop offset) ∨
    (offset < stop ∧ chars[stop - 1]? = some '\n' ∧ '\n' ∉ (chars.take (stop - 1)).drop offset)

theorem not_mem_lineRest (chars : List Char) (offset : Nat) : '\n' ∉ lineRest chars offset := by
  intro member
  have passed := List.mem_takeWhile_imp member
  simp at passed

theorem lineEnd_cases (chars : List Char) (within : offset ≤ chars.length) :
    (chars.drop offset = lineRest chars offset ∧ lineEnd chars offset = chars.length) ∨
      ∃ others, chars.drop offset = lineRest chars offset ++ '\n' :: others ∧
        lineEnd chars offset = offset + (lineRest chars offset).length + 1 := by
  have parts := List.takeWhile_append_dropWhile (p := (· != '\n')) (l := chars.drop offset)
  have total := congrArg List.length parts
  rw [List.length_append, List.length_drop] at total
  rw [lineEnd]
  cases behind : (chars.drop offset).dropWhile (· != '\n') with
  | nil =>
      left
      rw [behind, List.append_nil] at parts
      exact ⟨parts.symm, by simp⟩
  | cons c others =>
      right
      have stopped := List.head?_dropWhile_not (· != '\n') (chars.drop offset)
      rw [behind] at stopped
      have feed : c = '\n' := by simpa using stopped
      rw [behind, feed] at parts
      rw [behind, List.length_cons] at total
      refine ⟨others, parts.symm, ?_⟩
      rw [List.tail_cons, lineRest]
      omega

theorem closesLine_lineEnd (within : offset ≤ chars.length) :
    ClosesLine chars (lineEnd chars offset) offset := by
  have plain := not_mem_lineRest chars offset
  rcases lineEnd_cases chars within with ⟨behind, stop⟩ | ⟨others, behind, stop⟩
  · rw [stop]
    exact ⟨within, Nat.le_refl _, .inl ⟨rfl, behind ▸ plain⟩⟩
  · have long := congrArg List.length behind
    rw [List.length_drop, List.length_append, List.length_cons] at long
    rw [stop]
    refine ⟨by omega, by omega, .inr ⟨by omega, ?_, ?_⟩⟩
    · rw [Nat.add_sub_cancel, ← List.getElem?_drop, behind]
      simp
    · rw [Nat.add_sub_cancel, List.drop_take, behind, Nat.add_sub_cancel_left, List.take_left]
      exact plain

theorem segment_lineStart (chars : List Char) (offset : Nat) :
    segment chars (lineStart chars offset) offset = lineFront chars offset := by
  have parts := List.takeWhile_append_dropWhile
    (p := (· != '\n')) (l := (chars.take offset).reverse)
  have whole : chars.take offset =
      ((chars.take offset).reverse.dropWhile (· != '\n')).reverse ++ lineFront chars offset := by
    rw [lineFront, ← List.reverse_append, parts, List.reverse_reverse]
  rw [segment_natCast, lineStart, ← List.length_reverse]
  exact (congrArg _ whole).trans List.drop_left

theorem isBlankText_segment_lineEnd (within : offset ≤ chars.length) :
    isBlankText (segment chars offset (lineEnd chars offset)) =
      isBlankText (lineRest chars offset) := by
  rw [segment_natCast, List.drop_take]
  rcases lineEnd_cases chars within with ⟨behind, stop⟩ | ⟨others, behind, stop⟩
  · rw [stop, behind, List.take_of_length_le]
    rw [← behind, List.length_drop]
  · have taken : (lineRest chars offset ++ '\n' :: others).take
        ((lineRest chars offset).length + 1) = lineRest chars offset ++ ['\n'] := by
      rw [List.take_length_add_append]
      rfl
    rw [stop, behind, Nat.add_assoc, Nat.add_sub_cancel_left, taken, isBlankText,
      List.all_append]
    exact Bool.and_true _

/-! ## Texts without some of their lines -/

theorem OpensLine.endsLine (opens : OpensLine chars first start) :
    EndsLine (chars.take first) := by
  rcases opens.opens with none | feed
  · rw [none]
    exact .inl rfl
  · by_cases none : first = 0
    · rw [none]
      exact .inl rfl
    · right
      refine ⟨chars.take (first - 1), ?_⟩
      have next : first - 1 + 1 = first := by omega
      conv_lhs => rw [← next, List.take_add_one, feed]
      rfl

theorem OpensLine.count_eq (opens : OpensLine chars first start) :
    (chars.take first).count '\n' = (chars.take start).count '\n' := by
  have parted := List.take_append_drop first (chars.take start)
  rw [List.take_take, Nat.min_eq_left opens.ordered] at parted
  rw [← parted, List.count_append, List.count_eq_zero.mpr opens.plain, Nat.add_zero]

/-- The lines from that of one offset to that of another are left out, and no other line. -/
theorem wholeLines_without (opens : OpensLine chars first start) (closes : ClosesLine chars last stop)
    (ordered : start ≤ stop) :
    wholeLines (chars.take first ++ chars.drop last) =
      (wholeLines chars).take ((lineAndColumn chars start).1 - 1) ++
        (wholeLines chars).drop (lineAndColumn chars stop).1 := by
  have within := closes.within
  have behind := closes.ordered
  have ends := opens.endsLine
  have inFront : (wholeLines chars).take ((lineAndColumn chars start).1 - 1) =
      wholeLines (chars.take first) := by
    have parted := wholeLines_append ends (chars.drop first)
    rw [List.take_append_drop] at parted
    rw [parted, lineAndColumn_eq, Nat.add_sub_cancel, ← opens.count_eq, ← length_wholeLines ends,
      List.take_left]
  have inBack : (wholeLines chars).drop (lineAndColumn chars stop).1 =
      wholeLines (chars.drop last) := by
    rw [lineAndColumn_eq]
    rcases closes.closes with ⟨atEnd, plain⟩ | ⟨beyond, feed, plain⟩
    · have feeds := congrArg (List.count '\n') (List.take_append_drop stop chars)
      rw [List.count_append, List.count_eq_zero.mpr plain, Nat.add_zero] at feeds
      rw [atEnd, List.drop_length, feeds, List.drop_of_length_le (length_wholeLines_le chars)]
      rfl
    · have next : last - 1 + 1 = last := by omega
      have closed : chars.take last = chars.take (last - 1) ++ ['\n'] := by
        conv_lhs => rw [← next, List.take_add_one, feed]
        rfl
      have ends : EndsLine (chars.take last) := .inr ⟨_, closed⟩
      have parted := List.take_append_drop stop (chars.take (last - 1))
      rw [List.take_take, Nat.min_eq_left (by omega)] at parted
      have feeds : (chars.take last).count '\n' = (chars.take stop).count '\n' + 1 := by
        rw [closed, ← parted, List.count_append, List.count_append,
          List.count_eq_zero.mpr plain]
        rfl
      have lines := wholeLines_append ends (chars.drop last)
      rw [List.take_append_drop] at lines
      rw [lines, ← feeds, ← length_wholeLines ends, List.drop_left]
  rw [wholeLines_append ends, inFront, inBack]

example : wholeLines "a\n\nb".toList = ["a\n".toList, "\n".toList, "b".toList] := by decide

end Text

namespace Node

variable {node : Node} {source : String}

/-- A node has its lines to itself if nothing but white space stands on them in front of it and
behind it. -/
def StandsAlone (node : Node) (source : String) : Prop :=
  Text.isBlankText (Text.lineFront source.toList node.start) = true ∧
    Text.isBlankText (Text.lineRest source.toList node.stop) = true

instance (node : Node) (source : String) : Decidable (node.StandsAlone source) :=
  inferInstanceAs (Decidable (_ ∧ _))

theorem deletion_eq (within : node.stop ≤ source.length) :
    node.deletion source =
      if node.StandsAlone source then
        .write (Text.lineStart source.toList node.start) (Text.lineEnd source.toList node.stop) ""
      else .write node.start node.stop "" := by
  rw [← String.length_toList] at within
  simp only [deletion, Text.segment_lineStart, Text.isBlankText_segment_lineEnd within,
    Bool.and_eq_true]
  exact if_congr Iff.rfl rfl rfl

theorem StandsAlone.isBlank (alone : node.StandsAlone source) (within : node.stop ≤ source.length)
    {offset : Nat} {c : Char} (stands : source.toList[offset]? = some c)
    (front : Text.lineStart source.toList node.start ≤ offset)
    (back : offset < Text.lineEnd source.toList node.stop)
    (beside : offset < node.start ∨ node.stop ≤ offset) : Character.isBlank c = true := by
  rcases alone with ⟨before, behind⟩
  rw [← String.length_toList] at within
  rw [← Text.segment_lineStart, Text.segment_natCast] at before
  rw [← Text.isBlankText_segment_lineEnd within, Text.segment_natCast] at behind
  rcases beside with left | right
  · apply List.all_eq_true.mp before
    apply List.mem_of_getElem? (i := offset - Text.lineStart source.toList node.start)
    rw [List.getElem?_drop, Nat.add_sub_cancel' front, List.getElem?_take_of_lt left, stands]
  · apply List.all_eq_true.mp behind
    apply List.mem_of_getElem? (i := offset - node.stop)
    rw [List.getElem?_drop, Nat.add_sub_cancel' right, List.getElem?_take_of_lt back, stands]

/-- A deletion covers its node and beside it white space only. A node that has its lines to itself
is deleted with just these lines, from the start of the first one to behind the line feed of the last
one or the end of the source, and the other lines are left as they are. Any other node is deleted
alone. -/
theorem deletion_takes_lines (source : String) (node : Node) (ordered : node.start ≤ node.stop)
    (within : node.stop ≤ source.length) :
    ∃ first last : Nat, node.deletion source = .write first last "" ∧
      first ≤ node.start ∧ node.stop ≤ last ∧ last ≤ source.length ∧
      (∀ (offset : Nat) (c : Char), source.toList[offset]? = some c → first ≤ offset →
        offset < last → offset < node.start ∨ node.stop ≤ offset → Character.isBlank c = true) ∧
      (node.StandsAlone source →
        Text.OpensLine source.toList first node.start ∧
        Text.ClosesLine source.toList last node.stop ∧
        ∃ text, (node.deletion source).splice? source = some text ∧
          Text.wholeLines text.toList =
            (Text.wholeLines source.toList).take
                ((Text.lineAndColumn source.toList node.start).1 - 1) ++
              (Text.wholeLines source.toList).drop
                (Text.lineAndColumn source.toList node.stop).1) ∧
      (¬node.StandsAlone source → first = node.start ∧ last = node.stop) := by
  rw [deletion_eq within]
  by_cases alone : node.StandsAlone source
  · have opens := Text.opensLine_lineStart source.toList node.start
    have closes := Text.closesLine_lineEnd (String.length_toList ▸ within)
    rw [if_pos alone]
    refine ⟨_, _, rfl, opens.ordered, closes.ordered, String.length_toList ▸ closes.within, ?_,
      fun _ => ⟨opens, closes, _, rfl, ?_⟩, fun other => absurd alone other⟩
    · intro offset c stands front back beside
      exact alone.isBlank within stands front back beside
    · have written : (Text.slice source 0 (Text.lineStart source.toList node.start) ++ "" ++
          Text.slice source (Text.lineEnd source.toList node.stop) source.length).toList =
            source.toList.take (Text.lineStart source.toList node.start) ++
              source.toList.drop (Text.lineEnd source.toList node.stop) := by
        rw [String.append_empty, String.toList_append, Text.toList_slice_zero,
          Text.toList_slice_natCast, ← String.length_toList, List.take_length]
      exact (congrArg Text.wholeLines written).trans (Text.wholeLines_without opens closes ordered)
  · rw [if_neg alone]
    refine ⟨_, _, rfl, Nat.le_refl _, Nat.le_refl _, within, ?_, fun other => absurd other alone,
      fun _ => ⟨rfl, rfl⟩⟩
    intro offset c _ front back beside
    omega

/-- A statement over two lines, the second of which has no line feed. -/
theorem deletion_takes_lines_lastStatement :
    let source := "a\n  rebuild \\\n 0 "
    let node : Node := ⟨"call", true, none, ⟨2, 2, 3, 2, 4, 16⟩, "rebuild \\\n 0", []⟩
    node.start ≤ node.stop ∧ node.stop ≤ source.length ∧ node.StandsAlone source ∧
      ∃ text, (node.deletion source).splice? source = some text ∧
        Text.wholeLines text.toList = ["a\n".toList] := by
  intro source node
  have ordered : node.start ≤ node.stop := by decide
  have within : node.stop ≤ source.length := by decide
  have alone : node.StandsAlone source := by decide
  rcases deletion_takes_lines source node ordered within with ⟨first, last, -, -, -, -, -, lines, -⟩
  rcases lines alone with ⟨-, -, text, spliced, left⟩
  refine ⟨ordered, within, alone, text, spliced, left.trans ?_⟩
  decide

end Node

end FormulaLint
