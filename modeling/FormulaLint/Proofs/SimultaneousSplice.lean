import FormulaLint.Proofs.GreedySelection

/-! Putting the fixes of a correction into a text. They are put in one after another from the back,
and the outcome is that of putting all of them in at once: the stretches between the fixes are kept
as they are, and each fix is replaced by its text. -/

namespace FormulaLint

/-! ## Cutting a text -/

namespace Text

variable {text : String} {start middle stop : Nat}

theorem toList_slice_natCast (text : String) (start stop : Nat) :
    (slice text start stop).toList = (text.toList.take stop).drop start := by
  rw [toList_slice, segment_natCast]

theorem drop_eq_append (chars : List Char) (ordered : start ≤ stop) :
    chars.drop start = (chars.take stop).drop start ++ chars.drop stop := by
  rw [List.drop_take]
  have parts := List.take_append_drop (stop - start) (chars.drop start)
  rw [List.drop_drop, Nat.add_sub_cancel' ordered] at parts
  exact parts.symm

theorem slice_append_slice (text : String) (ordered : start ≤ middle) (after : middle ≤ stop) :
    slice text start middle ++ slice text middle stop = slice text start stop := by
  rw [← String.toList_inj, String.toList_append]
  simp only [toList_slice_natCast]
  rw [drop_eq_append (text.toList.take stop) ordered, List.take_take, Nat.min_eq_left after]

theorem toList_slice_zero (text : String) (stop : Nat) :
    (slice text 0 stop).toList = text.toList.take stop :=
  (toList_slice_natCast text 0 stop).trans List.drop_zero

theorem length_slice_zero (within : stop ≤ text.length) :
    (slice text 0 stop).toList.length = stop := by
  rw [toList_slice_zero, List.length_take, String.length_toList, Nat.min_eq_left within]

theorem slice_zero_append (ordered : start ≤ stop) (within : stop ≤ text.length) (tail : String) :
    slice (slice text 0 stop ++ tail) 0 start = slice text 0 start := by
  have length := length_slice_zero within
  rw [← String.toList_inj, toList_slice_zero, toList_slice_zero, String.toList_append,
    List.take_append_of_le_length (by omega), toList_slice_zero, List.take_take,
    Nat.min_eq_left ordered]

private theorem slice_append_length (within : stop ≤ text.length) (tail : String) :
    slice (slice text 0 stop ++ tail) stop (slice text 0 stop ++ tail).length = tail := by
  have length := length_slice_zero within
  rw [← String.toList_inj, toList_slice_natCast, ← String.length_toList, List.take_length,
    String.toList_append]
  exact List.drop_left' length

theorem slice_zero_length (text : String) : slice text 0 text.length = text := by
  rw [← String.toList_inj, toList_slice_zero, ← String.length_toList, List.take_length]

def charsWhere (keep : Nat → Bool) (first : Nat) : List Char → List Char
  | [] => []
  | c :: rest =>
      if keep first then c :: charsWhere keep (first + 1) rest
      else charsWhere keep (first + 1) rest

theorem charsWhere_append (keep : Nat → Bool) (first : Nat) (front back : List Char) :
    charsWhere keep first (front ++ back) =
      charsWhere keep first front ++ charsWhere keep (first + front.length) back := by
  induction front generalizing first with
  | nil => rfl
  | cons c rest induction =>
      have next : first + 1 + rest.length = first + (c :: rest).length := by
        rw [List.length_cons]
        omega
      simp only [List.cons_append, charsWhere, induction, next]
      split <;> rfl

theorem charsWhere_congr {keep other : Nat → Bool} {first : Nat} {chars : List Char}
    (same : ∀ offset, first ≤ offset → offset < first + chars.length →
      keep offset = other offset) :
    charsWhere keep first chars = charsWhere other first chars := by
  induction chars generalizing first with
  | nil => rfl
  | cons c rest induction =>
      rw [List.length_cons] at same
      have later : charsWhere keep (first + 1) rest = charsWhere other (first + 1) rest :=
        induction fun offset above below => same offset (by omega) (by omega)
      rw [charsWhere, charsWhere, later, same first (by omega) (by omega)]

theorem charsWhere_eq_self {keep : Nat → Bool} {first : Nat} {chars : List Char}
    (kept : ∀ offset, first ≤ offset → offset < first + chars.length → keep offset = true) :
    charsWhere keep first chars = chars := by
  induction chars generalizing first with
  | nil => rfl
  | cons c rest induction =>
      rw [List.length_cons] at kept
      have later : charsWhere keep (first + 1) rest = rest :=
        induction fun offset above below => kept offset (by omega) (by omega)
      rw [charsWhere, later, if_pos (kept first (by omega) (by omega))]

theorem charsWhere_eq_nil {keep : Nat → Bool} {first : Nat} {chars : List Char}
    (cut : ∀ offset, first ≤ offset → offset < first + chars.length → keep offset = false) :
    charsWhere keep first chars = [] := by
  induction chars generalizing first with
  | nil => rfl
  | cons c rest induction =>
      rw [List.length_cons] at cut
      have later : charsWhere keep (first + 1) rest = [] :=
        induction fun offset above below => cut offset (by omega) (by omega)
      rw [charsWhere, later, cut first (by omega) (by omega), if_neg Bool.false_ne_true]

/-- Stretches of a text and what is written between them, in turn. -/
def weave : List String → List String → String
  | gap :: gaps, written :: others => gap ++ written ++ weave gaps others
  | gap :: _, [] => gap
  | [], _ => ""

end Text

namespace Fix

/-! ## Fixes that follow one another -/

/-- Fixes ascend from one offset to another if each starts where the one before it ends or later. -/
def Ascending (start stop : Int) : List Fix → Prop
  | [] => start ≤ stop
  | fix :: rest => start ≤ fix.start ∧ fix.start ≤ fix.stop ∧ Ascending fix.stop stop rest

theorem Ascending.le {start stop : Int} {fixes : List Fix}
    (ascending : Ascending start stop fixes) : start ≤ stop := by
  induction fixes generalizing start with
  | nil => exact ascending
  | cons fix rest induction =>
      rcases ascending with ⟨front, within, behind⟩
      exact front.trans (within.trans (induction behind))

theorem Ascending.exists_natCast {text : String} {position : Nat} {fix : Fix} {rest : List Fix}
    (ascending : Ascending position text.length (fix :: rest)) :
    ∃ start stop : Nat, fix.start = start ∧ fix.stop = stop ∧ position ≤ start ∧ start ≤ stop ∧
      stop ≤ text.length ∧ Ascending stop text.length rest := by
  rcases ascending with ⟨front, ordered, behind⟩
  rcases Int.eq_ofNat_of_zero_le (a := fix.start) (by omega) with ⟨start, startEq⟩
  rcases Int.eq_ofNat_of_zero_le (a := fix.stop) (by omega) with ⟨stop, stopEq⟩
  have bound := behind.le
  rw [stopEq] at behind
  exact ⟨start, stop, startEq, stopEq, by omega, by omega, by omega, behind⟩

/-- The stretches of a text from an offset on that lie between fixes: up to the first one, from the
end of each one to the start of the next, and from the end of the last one. -/
def gaps (text : String) (position : Int) : List Fix → List String
  | [] => [Text.slice text position text.length]
  | fix :: rest => Text.slice text position fix.start :: gaps text fix.stop rest

def writtenTexts? (fixes : List Fix) : Option (List String) :=
  fixes.mapM fun fix => fix.replacement.text?

theorem isSome_writtenTexts? (fixes : List Fix) :
    (writtenTexts? fixes).isSome = fixes.all fun fix => fix.replacement.text?.isSome := by
  induction fixes with
  | nil => rfl
  | cons fix rest induction =>
      unfold writtenTexts? at induction
      rw [writtenTexts?, List.mapM_cons, List.all_cons, ← induction]
      cases fix.replacement.text? with
      | none => rfl
      | some text => cases rest.mapM fun fix => fix.replacement.text? <;> rfl

theorem spliceAll?_append (text : String) (front back : List Fix) :
    spliceAll? text (front ++ back) =
      (spliceAll? text front).bind fun changed => spliceAll? changed back := by
  induction front generalizing text with
  | nil => rfl
  | cons fix rest induction =>
      rw [List.cons_append, spliceAll?, spliceAll?, Option.bind_assoc]
      congr 1
      funext changed
      exact induction changed

/-- Put in from the back, fixes leave the text in front of them as it was. -/
theorem spliceAll?_reverse (text : String) (fixes : List Fix) (position : Nat)
    (ascending : Ascending position text.length fixes) :
    spliceAll? text fixes.reverse = (writtenTexts? fixes).map fun written =>
      Text.slice text 0 position ++ Text.weave (gaps text position fixes) written := by
  induction fixes generalizing position with
  | nil =>
      have within : position ≤ text.length := Int.ofNat_le.mp ascending
      have whole : Text.slice text 0 position ++ Text.slice text position text.length = text :=
        (Text.slice_append_slice text (Nat.zero_le position) within).trans
          (Text.slice_zero_length text)
      simp [spliceAll?, writtenTexts?, gaps, Text.weave, whole]
  | cons fix rest induction =>
      rcases ascending.exists_natCast with
        ⟨start, stop, startEq, stopEq, beforeStart, beforeStop, within, behind⟩
      have untouched : Text.slice text 0 position ++ Text.slice text position start =
          Text.slice text 0 start :=
        Text.slice_append_slice text (Nat.zero_le position) beforeStart
      rw [List.reverse_cons, spliceAll?_append, induction stop behind]
      cases replacement : fix.replacement.text? with
      | none => simp [writtenTexts?, spliceAll?, splice?, replacement]
      | some text' =>
          cases written : rest.mapM fun fix => fix.replacement.text? with
          | none => simp [writtenTexts?, replacement, written]
          | some others =>
              simp only [writtenTexts?, List.mapM_cons, replacement, written, Option.map_some,
                Option.bind_some, Option.bind_eq_bind, Option.pure_def, spliceAll?, splice?,
                startEq, stopEq, gaps, Text.weave,
                Text.slice_zero_append beforeStop within, Text.slice_append_length within]
              rw [← untouched]
              simp only [String.append_assoc]

/-! ## What is kept -/

def covers (fix : Fix) (offset : Nat) : Bool :=
  fix.start ≤ offset && offset < fix.stop

def leave (fixes : List Fix) (offset : Nat) : Bool :=
  !fixes.any fun fix => fix.covers offset

theorem covers_iff (fix : Fix) (offset : Nat) :
    fix.covers offset = true ↔ fix.start ≤ offset ∧ offset < fix.stop := by
  rw [covers, Bool.and_eq_true, decide_eq_true_eq, decide_eq_true_eq]

theorem leave_cons (fix : Fix) (rest : List Fix) (offset : Nat) :
    leave (fix :: rest) offset = (!fix.covers offset && leave rest offset) := by
  rw [leave, List.any_cons, Bool.not_or]
  rfl

theorem leave_of_lt {start stop : Int} {fixes : List Fix} (ascending : Ascending start stop fixes)
    {offset : Nat} (before : offset < start) : leave fixes offset = true := by
  induction fixes generalizing start with
  | nil => rfl
  | cons fix rest induction =>
      rcases ascending with ⟨front, ordered, behind⟩
      have unreached : fix.covers offset = false := by
        rw [Bool.eq_false_iff, Ne, covers_iff]
        omega
      rw [leave_cons, unreached, induction behind (by omega)]
      rfl

theorem flatMap_toList_gaps (text : String) (fixes : List Fix) (position : Nat)
    (ascending : Ascending position text.length fixes) :
    (gaps text position fixes).flatMap String.toList =
      Text.charsWhere (leave fixes) position (text.toList.drop position) := by
  induction fixes generalizing position with
  | nil =>
      rw [gaps, List.flatMap_singleton, Text.toList_slice_natCast, ← String.length_toList,
        List.take_length]
      exact (Text.charsWhere_eq_self fun offset _ _ => rfl).symm
  | cons fix rest induction =>
      rcases ascending.exists_natCast with
        ⟨start, stop, startEq, stopEq, beforeStart, beforeStop, within, behind⟩
      rw [← String.length_toList] at within
      have frontLength : ((text.toList.take start).drop position).length = start - position := by
        rw [List.length_drop, List.length_take]
        omega
      have middleLength : ((text.toList.take stop).drop start).length = stop - start := by
        rw [List.length_drop, List.length_take]
        omega
      have keptFront : Text.charsWhere (leave (fix :: rest)) position
          ((text.toList.take start).drop position) = (text.toList.take start).drop position := by
        have whole : Ascending start text.length (fix :: rest) :=
          ⟨startEq.ge, by omega, stopEq ▸ behind⟩
        apply Text.charsWhere_eq_self
        intro offset above below
        exact leave_of_lt whole (by omega)
      have cutMiddle : Text.charsWhere (leave (fix :: rest)) start
          ((text.toList.take stop).drop start) = [] := by
        apply Text.charsWhere_eq_nil
        intro offset above below
        have covered : fix.covers offset = true := (fix.covers_iff offset).mpr (by omega)
        rw [leave_cons, covered]
        rfl
      have keptBack : Text.charsWhere (leave (fix :: rest)) stop (text.toList.drop stop) =
          Text.charsWhere (leave rest) stop (text.toList.drop stop) := by
        apply Text.charsWhere_congr
        intro offset above _
        have passed : fix.covers offset = false := by
          rw [Bool.eq_false_iff, Ne, covers_iff]
          omega
        rw [leave_cons, passed]
        rfl
      rw [gaps, List.flatMap_cons, startEq, Text.toList_slice_natCast, stopEq,
        induction stop behind,
        Text.drop_eq_append text.toList beforeStart, Text.drop_eq_append text.toList beforeStop,
        Text.charsWhere_append, Text.charsWhere_append, frontLength, middleLength,
        Nat.add_sub_cancel' beforeStart, Nat.add_sub_cancel' beforeStop, keptFront, cutMiddle,
        keptBack, List.nil_append]

/-! ## Fixes in source order -/

/-- A fix comes before another if its stretch is smaller, by start and then by end, and is over
where the other one starts. -/
structure Precedes (left right : Fix) : Prop where
  smaller : left.start < right.start ∨ left.start = right.start ∧ left.stop < right.stop
  apart : left.stop ≤ right.start

structure Within (fix : Fix) (text : String) : Prop where
  front : 0 ≤ fix.start
  ordered : fix.start ≤ fix.stop
  back : fix.stop ≤ text.length

variable {text : String} {fixes : List Fix}

theorem ascending_of_pairwise {position : Int} (front : position ≤ text.length)
    (reached : ∀ fix ∈ fixes, position ≤ fix.start) (within : ∀ fix ∈ fixes, fix.Within text)
    (ordered : fixes.Pairwise Precedes) : Ascending position text.length fixes := by
  induction ordered generalizing position with
  | nil => exact front
  | @cons fix rest precedes _ induction =>
      have inside := within fix List.mem_cons_self
      refine ⟨reached fix List.mem_cons_self, inside.ordered, induction inside.back ?_ ?_⟩
      · intro other member
        exact (precedes other member).apart
      · intro other member
        exact within other (List.mem_cons_of_mem fix member)

theorem notBefore_of_precedes {left right : Fix} (precedes : left.Precedes right) :
    notBefore left right = false := by
  have smaller := precedes.smaller
  rw [notBefore]
  split
  · rw [decide_eq_false_iff_not]
    omega
  · rw [decide_eq_false_iff_not]
    omega

/-- Where one fix ends at the start of another, only an insertion fits between them, and none does
if one of the two is an insertion itself. -/
theorem adjacent_of_insertion (within : ∀ fix ∈ fixes, fix.Within text)
    (ordered : fixes.Pairwise Precedes) {left right : Fix} (leftMember : left ∈ fixes)
    (rightMember : right ∈ fixes) (precedes : left.Precedes right)
    (touch : left.stop = right.start)
    (insertion : left.start = left.stop ∨ right.start = right.stop) :
    [left, right] <:+: fixes := by
  rcases List.append_of_mem leftMember with ⟨front, back, rfl⟩
  rw [List.pairwise_append, List.pairwise_cons] at ordered
  rcases ordered with ⟨-, ⟨behindLeft, inBack⟩, across⟩
  have smaller := precedes.smaller
  have rightInside := within right rightMember
  have leftInside := within left leftMember
  have behind : right ∈ back := by
    rcases List.mem_append.mp rightMember with inFront | atOrBehind
    · have reversed := (across right inFront left List.mem_cons_self).smaller
      omega
    · rcases List.mem_cons.mp atOrBehind with same | behind
      · rw [same] at smaller
        omega
      · exact behind
  cases back with
  | nil => cases behind
  | cons next rest =>
      have nextInside := within next (by simp)
      rcases List.mem_cons.mp behind with same | later
      · subst same
        exact ⟨front, rest, by simp⟩
      · have first := behindLeft next List.mem_cons_self
        have second := (List.pairwise_cons.mp inBack).1 right later
        have firstSmaller := first.smaller
        have firstApart := first.apart
        have secondSmaller := second.smaller
        have secondApart := second.apart
        have nextOrdered := nextInside.ordered
        omega

end Fix

namespace Correction

variable {source : String} {offenses : List Offense}

theorem within_of_mem_fixes
    (within : ∀ offense ∈ offenses, ∀ fix, offense.fix = some fix → fix.Within source) :
    ∀ fix ∈ (ofOffenses offenses).fixes, fix.Within source := by
  intro fix member
  rcases exists_offense_of_mem_fixes member with ⟨offense, listed, has⟩
  exact within offense listed fix has

theorem pairwise_precedes_fixes
    (within : ∀ offense ∈ offenses, ∀ fix, offense.fix = some fix → fix.Within source) :
    (ofOffenses offenses).fixes.Pairwise Fix.Precedes := by
  have inside := within_of_mem_fixes within
  have greedy := Candidate.greedySelection_accepted offenses
  unfold ofOffenses at inside ⊢
  rw [List.pairwise_map]
  apply (greedy.ordered.and greedy.apart).imp_of_mem
  rintro left right leftMember rightMember ⟨before, apart⟩
  have leftOrdered := (inside left.fix (List.mem_map_of_mem leftMember)).ordered
  have rightOrdered := (inside right.fix (List.mem_map_of_mem rightMember)).ordered
  rw [Candidate.before_iff] at before
  simp only [Candidate.Apart, Fix.overlaps, Bool.and_eq_true, decide_eq_true_eq] at apart
  split at apart
  · rw [decide_eq_false_iff_not] at apart
    exact ⟨by omega, by omega⟩
  · rw [Bool.and_eq_false_iff, decide_eq_false_iff_not, decide_eq_false_iff_not] at apart
    exact ⟨by omega, by omega⟩

/-- A correction of a text is simultaneous if its fixes follow one another in the text, all that
lies between them is kept, and each stretch gives way to the text of its fix. An insertion at either
end of a stretch is the neighbour of its fix on that side. -/
structure Simultaneous (plan : Correction) (source : String) : Prop where
  ordered : plan.fixes.Pairwise Fix.Precedes
  ascending : Fix.Ascending 0 source.length plan.fixes
  spliced : plan.splice? source =
    (Fix.writtenTexts? plan.fixes).map (Text.weave (Fix.gaps source 0 plan.fixes))
  succeeds : (plan.splice? source).isSome =
    plan.fixes.all fun fix => fix.replacement.text?.isSome
  kept : (Fix.gaps source 0 plan.fixes).flatMap String.toList =
    Text.charsWhere (Fix.leave plan.fixes) 0 source.toList
  insertedInFront : ∀ insertion ∈ plan.fixes, ∀ replacing ∈ plan.fixes,
    insertion.start = insertion.stop → replacing.start < replacing.stop →
      insertion.start = replacing.start → [insertion, replacing] <:+: plan.fixes
  insertedBehind : ∀ insertion ∈ plan.fixes, ∀ replacing ∈ plan.fixes,
    insertion.start = insertion.stop → replacing.start < replacing.stop →
      insertion.start = replacing.stop → [replacing, insertion] <:+: plan.fixes

/-- Put in one after another from the back, the accepted fixes are put in all at once. -/
theorem simultaneous_ofOffenses (source : String) (offenses : List Offense)
    (within : ∀ offense ∈ offenses, ∀ fix, offense.fix = some fix → fix.Within source) :
    (ofOffenses offenses).Simultaneous source := by
  have inside := within_of_mem_fixes within
  have ordered := pairwise_precedes_fixes within
  have ascending : Fix.Ascending (0 : Nat) source.length (ofOffenses offenses).fixes :=
    Fix.ascending_of_pairwise (by omega) (fun fix member => (inside fix member).front) inside
      ordered
  have spliced : (ofOffenses offenses).splice? source =
      (Fix.writtenTexts? (ofOffenses offenses).fixes).map
        (Text.weave (Fix.gaps source 0 (ofOffenses offenses).fixes)) := by
    have noFront : Text.slice source 0 0 = "" := by
      rw [← String.toList_inj]
      exact Text.toList_slice_zero source 0
    rw [splice?, stableSort_eq_reverse (ordered.imp Fix.notBefore_of_precedes),
      Fix.spliceAll?_reverse source _ 0 ascending]
    simp only [Int.natCast_zero, noFront, String.empty_append]
  constructor
  case ordered => exact ordered
  case ascending => exact ascending
  case spliced => exact spliced
  case succeeds => rw [spliced, Option.isSome_map, Fix.isSome_writtenTexts?]
  case kept => exact Fix.flatMap_toList_gaps source _ 0 ascending
  case insertedInFront =>
    intro insertion insertionMember replacing replacingMember empty full atStart
    apply Fix.adjacent_of_insertion inside ordered insertionMember replacingMember
    · exact ⟨by omega, by omega⟩
    · exact empty.symm.trans atStart
    · exact .inl empty
  case insertedBehind =>
    intro insertion insertionMember replacing replacingMember empty full atEnd
    apply Fix.adjacent_of_insertion inside ordered replacingMember insertionMember
    · exact ⟨by omega, by omega⟩
    · exact atEnd.symm
    · exact .inr empty

/-- A report on a text of six characters: a replacement with an insertion at either end and another
replacement next to it, and one that reaches into both. -/
def touchingReport : List Offense := [
  ⟨"Family/Behind", .text "behind", .convention, 1, 4, "abcdef", some (.write 4 4 ">"), false⟩,
  ⟨"Family/Both", .text "both", .convention, 1, 3, "abcdef", some (.write 3 5 "?"), false⟩,
  ⟨"Family/Next", .text "next", .convention, 1, 4, "abcdef", some (.write 4 5 "z"), false⟩,
  ⟨"Family/Whole", .text "whole", .convention, 1, 2, "abcdef", some (.write 2 4 "xy"), false⟩,
  ⟨"Family/Front", .text "front", .convention, 1, 2, "abcdef", some (.write 2 2 "<"), false⟩]

theorem splice?_touchingReport :
    (∀ offense ∈ touchingReport, ∀ fix, offense.fix = some fix → fix.Within "abcdef") ∧
      (ofOffenses touchingReport).splice? "abcdef" = some "ab<xy>zf" := by
  have within : ∀ offense ∈ touchingReport, ∀ fix, offense.fix = some fix →
      fix.Within "abcdef" := by
    intro offense member fix has
    have long : "abcdef".length = 6 := rfl
    simp only [touchingReport, List.mem_cons, List.not_mem_nil, or_false] at member
    rcases member with rfl | rfl | rfl | rfl | rfl
    all_goals
      cases has
      exact ⟨by decide, by decide, by rw [long]; decide⟩
  exact ⟨within, (simultaneous_ofOffenses "abcdef" touchingReport within).spliced.trans rfl⟩

end Correction

end FormulaLint
