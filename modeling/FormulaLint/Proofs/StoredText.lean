import FormulaLint.Proofs.SimultaneousSplice
import FormulaLint.Text.Encoding
import FormulaLint.Text.Lines
import Mathlib.Data.List.Flatten

/-! Texts as they are stored and as they are read. Reading turns every carriage return into a line
feed, with the line feed behind it if there is one; so a stretch of the text that is read stands for
a stretch of the stored text, and the two are the same just if no carriage return is in it. -/

namespace FormulaLint

namespace Text

/-! ## Marks -/

/-- What is read as one character: a line end with a carriage return, which a line feed may follow,
or any other character. -/
inductive Mark where
  | lineEnd (followed : Bool)
  | plain (c : Char) (other : c ≠ '\r')

namespace Mark

def read : Mark → Char
  | .lineEnd _ => '\n'
  | .plain c _ => c

def stored : Mark → List Char
  | .lineEnd followed => if followed then ['\r', '\n'] else ['\r']
  | .plain c _ => [c]

def ofChar (c : Char) : Mark :=
  if same : c = '\r' then .lineEnd false else .plain c same

private theorem stored_ofChar (c : Char) : (ofChar c).stored = [c] := by
  rw [ofChar]
  split
  · rename_i same
    rw [same]
    rfl
  · rfl

private theorem read_ofChar (c : Char) : (ofChar c).read = if c == '\r' then '\n' else c := by
  simp only [ofChar, beq_iff_eq]
  split <;> rfl

private theorem read_ne_return (mark : Mark) : mark.read ≠ '\r' := by
  cases mark with
  | lineEnd followed =>
      intro same
      cases same
  | plain c other => exact other

private theorem stored_eq_read {mark : Mark} (noReturn : '\r' ∉ mark.stored) :
    mark.stored = [mark.read] := by
  cases mark with
  | lineEnd followed =>
      cases followed with
      | false => exact absurd (List.mem_singleton_self '\r') noReturn
      | true => exact absurd List.mem_cons_self noReturn
  | plain c other => rfl

end Mark

def marks : List Char → List Mark
  | [] => []
  | '\r' :: '\n' :: rest => .lineEnd true :: marks rest
  | c :: rest => .ofChar c :: marks rest

theorem flatMap_stored_marks (chars : List Char) : (marks chars).flatMap Mark.stored = chars := by
  fun_induction marks chars with
  | case1 => rfl
  | case2 rest induction =>
      rw [List.flatMap_cons, induction]
      rfl
  | case3 c rest single induction =>
      rw [List.flatMap_cons, induction, Mark.stored_ofChar]
      rfl

private theorem map_read_marks (chars : List Char) :
    (marks chars).map Mark.read = unifyLineEnds chars := by
  fun_induction marks chars with
  | case1 => rfl
  | case2 rest induction => rw [List.map_cons, induction, unifyLineEnds, Mark.read]
  | case3 c rest single induction =>
      rw [List.map_cons, induction, Mark.read_ofChar, unifyLineEnds]
      exact single

def unified (text : String) : String :=
  String.ofList (unifyLineEnds text.toList)

theorem toList_unified (text : String) :
    (unified text).toList = (marks text.toList).map Mark.read := by
  rw [unified, String.toList_ofList, map_read_marks]

theorem decode_eq_ok_iff {bytes : ByteArray} {text : String} :
    decode bytes = .ok text ↔ bytes = text.toUTF8 := by
  rw [decode, String.fromUTF8?]
  constructor
  · intro decoded
    split at decoded
    · rename_i read found
      split at found
      · cases found
        cases decoded
        rfl
      · cases found
    · cases decoded
  · rintro rfl
    have valid : text.toUTF8.IsValidUTF8 := text.isValidUTF8
    rw [dif_pos valid]
    rfl

theorem toUTF8_injective : Function.Injective String.toUTF8 := fun _ _ =>
  String.toByteArray_inj.mp

/-! ## Offsets -/

/-- Where the character that is read at an offset is stored. -/
def storedOffset (chars : List Char) (offset : Nat) : Nat :=
  (((marks chars).take offset).flatMap Mark.stored).length

private theorem take_storedOffset (chars : List Char) (offset : Nat) :
    chars.take (storedOffset chars offset) = ((marks chars).take offset).flatMap Mark.stored := by
  have parts : ((marks chars).take offset).flatMap Mark.stored ++
      ((marks chars).drop offset).flatMap Mark.stored = chars := by
    rw [← List.flatMap_append, List.take_append_drop, flatMap_stored_marks]
  have front : (((marks chars).take offset).flatMap Mark.stored ++
      ((marks chars).drop offset).flatMap Mark.stored).take (storedOffset chars offset) =
        ((marks chars).take offset).flatMap Mark.stored := List.take_left
  rwa [parts] at front

theorem storedOffset_length (text : String) :
    storedOffset text.toList (unified text).length = text.length := by
  rw [storedOffset, ← String.length_toList, toList_unified, List.length_map, List.take_length,
    flatMap_stored_marks, String.length_toList]

theorem storedOffset_mono (chars : List Char) {start stop : Nat} (ordered : start ≤ stop) :
    storedOffset chars start ≤ storedOffset chars stop := by
  have front : (marks chars).take start = ((marks chars).take stop).take start := by
    rw [List.take_take, Nat.min_eq_left ordered]
  rw [storedOffset, storedOffset, front]
  exact ((List.take_sublist start _).flatMap Mark.stored).length_le

/-- Between two offsets, the marks are stored between the offsets where those are stored. -/
theorem drop_take_storedOffset (chars : List Char) {start stop : Nat} (ordered : start ≤ stop) :
    (chars.take (storedOffset chars stop)).drop (storedOffset chars start) =
      (((marks chars).take stop).drop start).flatMap Mark.stored := by
  have front : (marks chars).take start = ((marks chars).take stop).take start := by
    rw [List.take_take, Nat.min_eq_left ordered]
  have parts : ((marks chars).take stop).flatMap Mark.stored =
      ((marks chars).take start).flatMap Mark.stored ++
        (((marks chars).take stop).drop start).flatMap Mark.stored := by
    rw [front, ← List.flatMap_append, List.take_append_drop]
  rw [take_storedOffset, parts]
  exact List.drop_left' rfl

/-! ## Stretches -/

def ReadAs (stored read : String) : Prop :=
  ∃ marks : List Mark,
    stored.toList = marks.flatMap Mark.stored ∧ read.toList = marks.map Mark.read

private theorem readAs_slice (text : String) {start stop : Nat} (ordered : start ≤ stop) :
    ReadAs (slice text (storedOffset text.toList start) (storedOffset text.toList stop))
      (slice (unified text) start stop) := by
  refine ⟨((marks text.toList).take stop).drop start, ?_, ?_⟩
  · rw [toList_slice_natCast]
    exact drop_take_storedOffset text.toList ordered
  · rw [toList_slice_natCast, toList_unified, List.map_drop, List.map_take]

theorem ReadAs.read_noReturn {stored read : String} (same : ReadAs stored read) :
    '\r' ∉ read.toList := by
  rcases same with ⟨marks, -, readEq⟩
  rw [readEq]
  intro member
  rcases List.mem_map.mp member with ⟨mark, -, isReturn⟩
  exact mark.read_ne_return isReturn

theorem ReadAs.eq {stored read : String} (same : ReadAs stored read)
    (noReturn : '\r' ∉ stored.toList) : read = stored := by
  rcases same with ⟨marks, storedEq, readEq⟩
  rw [storedEq] at noReturn
  rw [← String.toList_inj, storedEq, readEq]
  clear storedEq readEq
  induction marks with
  | nil => rfl
  | cons mark rest induction =>
      rw [List.flatMap_cons, List.mem_append, not_or] at noReturn
      rw [List.map_cons, List.flatMap_cons, induction noReturn.2, Mark.stored_eq_read noReturn.1]
      rfl

/-! ## Texts around stretches -/

private theorem count_weave (c : Char) {gaps written : List String}
    (lengths : gaps.length = written.length + 1) :
    (weave gaps written).toList.count c =
      (gaps.flatMap String.toList).count c + (written.flatMap String.toList).count c := by
  induction written generalizing gaps with
  | nil =>
      rcases List.length_eq_one_iff.mp lengths with ⟨gap, rfl⟩
      simp [weave]
  | cons text others induction =>
      cases gaps with
      | nil => cases lengths
      | cons gap rest =>
          have later := induction (Nat.succ.inj lengths)
          simp only [weave, String.toList_append, List.count_append, later, List.flatMap_cons]
          omega

/-- With the same texts between them, the stretches that are read make up the same text as those
that are stored just if no carriage return is in any of them. -/
theorem weave_eq_iff {stored read written : List String} (same : List.Forall₂ ReadAs stored read)
    (lengths : stored.length = written.length + 1) :
    weave read written = weave stored written ↔ '\r' ∉ stored.flatMap String.toList := by
  constructor
  · intro equal
    have noReturn : '\r' ∉ read.flatMap String.toList := by
      intro member
      rcases List.mem_flatMap.mp member with ⟨gap, listed, inGap⟩
      rcases List.mem_iff_getElem.mp listed with ⟨position, below, rfl⟩
      exact (same.get (by rw [same.length_eq]; exact below) below).read_noReturn inGap
    have counted := congrArg (fun text : String => text.toList.count '\r') equal
    rw [count_weave '\r' lengths, count_weave '\r' (same.length_eq ▸ lengths),
      List.count_eq_zero.mpr noReturn] at counted
    exact List.count_eq_zero.mp (by omega)
  · intro noReturn
    have equal : read = stored := by
      clear lengths
      induction same with
      | nil => rfl
      | cons first _ induction =>
          rw [List.flatMap_cons, List.mem_append, not_or] at noReturn
          rw [first.eq noReturn.1, induction noReturn.2]
    rw [equal]

theorem mem_charsWhere (keep : Nat → Bool) (c : Char) (first : Nat) (chars : List Char) :
    c ∈ charsWhere keep first chars ↔
      ∃ offset, chars[offset]? = some c ∧ keep (first + offset) = true := by
  induction chars generalizing first with
  | nil => simp [charsWhere]
  | cons head rest induction =>
      have split : (∃ offset, (head :: rest)[offset]? = some c ∧ keep (first + offset) = true) ↔
          (head = c ∧ keep first = true) ∨ c ∈ charsWhere keep (first + 1) rest := by
        rw [induction]
        constructor
        · rintro ⟨offset, stands, kept⟩
          cases offset with
          | zero => exact .inl ⟨Option.some.inj stands, kept⟩
          | succ offset => exact .inr ⟨offset, stands, by rwa [Nat.add_right_comm, Nat.add_assoc]⟩
        · rintro (⟨rfl, kept⟩ | ⟨offset, stands, kept⟩)
          · exact ⟨0, rfl, kept⟩
          · exact ⟨offset + 1, stands, by rwa [Nat.add_right_comm, Nat.add_assoc] at kept⟩
      rw [split, charsWhere]
      split
      · rename_i kept
        rw [List.mem_cons]
        simp [kept, eq_comm]
      · rename_i cut
        simp [cut]

end Text

/-! ## Fixes -/

namespace Fix

def stored (text : String) (fix : Fix) : Fix where
  start := Text.storedOffset text.toList fix.start.toNat
  stop := Text.storedOffset text.toList fix.stop.toNat
  replacement := fix.replacement

private theorem ascending_stored {text : String} {fixes : List Fix} {position : Nat}
    (ascending : Ascending position (Text.unified text).length fixes) :
    Ascending (Text.storedOffset text.toList position) text.length (fixes.map (stored text)) := by
  induction fixes generalizing position with
  | nil =>
      have back := Text.storedOffset_mono text.toList (Int.ofNat_le.mp ascending)
      rw [Text.storedOffset_length] at back
      exact Int.ofNat_le.mpr back
  | cons fix rest induction =>
      rcases ascending.exists_natCast with
        ⟨start, stop, startEq, stopEq, beforeStart, beforeStop, -, behind⟩
      refine ⟨?_, ?_, ?_⟩
      · rw [stored, startEq]
        exact Int.ofNat_le.mpr (Text.storedOffset_mono text.toList beforeStart)
      · rw [stored, startEq, stopEq]
        exact Int.ofNat_le.mpr (Text.storedOffset_mono text.toList beforeStop)
      · rw [stored, stopEq]
        exact induction behind

private theorem forall₂_readAs_gaps {text : String} {fixes : List Fix} {position : Nat}
    (ascending : Ascending position (Text.unified text).length fixes) :
    List.Forall₂ Text.ReadAs
      (gaps text (Text.storedOffset text.toList position) (fixes.map (stored text)))
      (gaps (Text.unified text) position fixes) := by
  induction fixes generalizing position with
  | nil =>
      have last := Text.readAs_slice text (Int.ofNat_le.mp ascending)
      rw [Text.storedOffset_length] at last
      exact .cons last .nil
  | cons fix rest induction =>
      rcases ascending.exists_natCast with
        ⟨start, stop, startEq, stopEq, beforeStart, beforeStop, -, behind⟩
      rw [List.map_cons, gaps, gaps, stored, startEq, stopEq]
      exact .cons (Text.readAs_slice text beforeStart) (induction behind)

private theorem length_gaps (text : String) (position : Int) (fixes : List Fix) :
    (gaps text position fixes).length = fixes.length + 1 := by
  induction fixes generalizing position with
  | nil => rfl
  | cons fix rest induction => rw [gaps, List.length_cons, induction, List.length_cons]

private theorem length_of_writtenTexts? {fixes : List Fix} {written : List String}
    (texts : writtenTexts? fixes = some written) : written.length = fixes.length := by
  induction fixes generalizing written with
  | nil =>
      cases texts
      rfl
  | cons fix rest induction =>
      rw [writtenTexts?, List.mapM_cons] at texts
      rcases Option.bind_eq_some_iff.mp texts with ⟨first, -, later⟩
      rcases Option.bind_eq_some_iff.mp later with ⟨others, found, joined⟩
      cases joined
      rw [List.length_cons, List.length_cons, induction found]

/-- Every carriage return of a text lies in a stretch that some fix replaces. -/
def CoverReturns (text : String) (fixes : List Fix) : Prop :=
  ∀ offset : Nat, text.toList[offset]? = some '\r' →
    ∃ fix ∈ fixes, (fix.stored text).covers offset = true

theorem weave_gaps_unified_iff {text : String} {fixes : List Fix} {written : List String}
    (ascending : Ascending 0 (Text.unified text).length fixes)
    (texts : writtenTexts? fixes = some written) :
    Text.weave (gaps (Text.unified text) 0 fixes) written =
        Text.weave (gaps text 0 (fixes.map (stored text))) written ↔
      CoverReturns text fixes := by
  have fromStart : Ascending (0 : Nat) (Text.unified text).length fixes := ascending
  have readAs : List.Forall₂ Text.ReadAs (gaps text 0 (fixes.map (stored text)))
      (gaps (Text.unified text) 0 fixes) := forall₂_readAs_gaps fromStart
  have lengths : (gaps text 0 (fixes.map (stored text))).length = written.length + 1 := by
    rw [length_gaps, List.length_map, length_of_writtenTexts? texts]
  have kept : (gaps text 0 (fixes.map (stored text))).flatMap String.toList =
      Text.charsWhere (leave (fixes.map (stored text))) 0 text.toList :=
    flatMap_toList_gaps text (fixes.map (stored text)) 0 (ascending_stored fromStart)
  rw [Text.weave_eq_iff readAs lengths, kept, Text.mem_charsWhere]
  simp only [not_exists, not_and, Nat.zero_add, leave, Bool.not_eq_true', Bool.not_eq_false,
    List.any_map, List.any_eq_true, Function.comp_apply, CoverReturns]

end Fix

end FormulaLint
