import FormulaLint.Proofs.GreedySelection

/-! What becomes of the offenses of a report when it is corrected: each keeps its place and all that
it says about the formula, and those whose fixes are accepted are the corrected ones. -/

namespace FormulaLint

/-- Offenses that say the same about a formula, whatever has become of their fixes. -/
structure Offense.SameFinding (left right : Offense) : Prop where
  rule : left.rule = right.rule
  message : left.message = right.message
  severity : left.severity = right.severity
  line : left.line = right.line
  column : left.column = right.column
  sourceLine : left.sourceLine = right.sourceLine

namespace Correction

def TakenAt (selection : List Candidate) (position : Nat) : Prop :=
  ∃ candidate ∈ selection, candidate.position = position

instance (selection : List Candidate) (position : Nat) : Decidable (TakenAt selection position) :=
  inferInstanceAs (Decidable (∃ candidate ∈ selection, candidate.position = position))

variable {offenses : List Offense}

theorem getElem?_offenses_ofOffenses (offenses : List Offense) (position : Nat) :
    (ofOffenses offenses).offenses[position]? =
      offenses[position]?.map fun offense => settle (accepted offenses) (offense, position) := by
  rw [ofOffenses, List.getElem?_map, List.getElem?_zipIdx, Option.map_map, Nat.zero_add]
  rfl

theorem settle_of_accepted {selection : List Candidate} {offense : Offense} {position : Nat}
    (taken : TakenAt selection position) :
    settle selection (offense, position) = { offense with corrected := true } := by
  rcases taken with ⟨candidate, member, same⟩
  rw [settle, if_pos (List.any_eq_true.mpr ⟨candidate, member, decide_eq_true same⟩)]

theorem settle_of_rejected {selection : List Candidate} {offense : Offense} {position : Nat}
    (left : ¬TakenAt selection position) :
    settle selection (offense, position) = { offense with fix := none } := by
  rw [settle, if_neg]
  intro taken
  rcases List.any_eq_true.mp taken with ⟨candidate, member, same⟩
  exact left ⟨candidate, member, of_decide_eq_true same⟩

private theorem settle_sameFinding (selection : List Candidate) (offense : Offense)
    (position : Nat) :
    (settle selection (offense, position)).SameFinding offense := by
  rw [settle]
  split <;> exact ⟨rfl, rfl, rfl, rfl, rfl, rfl⟩

private theorem fix_ne_none_of_accepted {offense : Offense} {position : Nat}
    (stands : offenses[position]? = some offense)
    (taken : TakenAt (accepted offenses) position) :
    offense.fix ≠ none := by
  rcases taken with ⟨candidate, member, rfl⟩
  rcases (Candidate.greedySelection_accepted offenses).offered candidate member with ⟨same, has⟩
  rw [stands] at same
  cases same
  rw [has]
  exact Option.some_ne_none _

theorem corrected_settle_iff {offense : Offense} (position : Nat)
    (fresh : offense.corrected = false) :
    (settle (accepted offenses) (offense, position)).corrected = true ↔
      TakenAt (accepted offenses) position := by
  by_cases taken : TakenAt (accepted offenses) position
  · rw [settle_of_accepted taken]
    exact ⟨fun _ => taken, fun _ => rfl⟩
  · rw [settle_of_rejected taken]
    simp only [fresh, Bool.false_eq_true, taken]

theorem kept_iff {offense : Offense} {position : Nat} (fresh : offense.corrected = false) :
    ((settle (accepted offenses) (offense, position)).corrected = true ∧
        (settle (accepted offenses) (offense, position)).fix = offense.fix) ↔
      TakenAt (accepted offenses) position := by
  rw [corrected_settle_iff position fresh]
  constructor
  · exact And.left
  · intro taken
    rw [settle_of_accepted taken]
    exact ⟨taken, rfl⟩

theorem lost_iff {offense : Offense} {position : Nat}
    (stands : offenses[position]? = some offense) (fresh : offense.corrected = false) :
    ((settle (accepted offenses) (offense, position)).fix = none ∧
        (settle (accepted offenses) (offense, position)).corrected = false) ↔
      offense.fix = none ∨ ¬TakenAt (accepted offenses) position := by
  by_cases taken : TakenAt (accepted offenses) position
  · have has := fix_ne_none_of_accepted stands taken
    rw [settle_of_accepted taken]
    simp [has, taken]
  · rw [settle_of_rejected taken]
    simp only [fresh, taken, not_false_eq_true, or_true, and_self]

/-! ## Counting -/

private theorem nodup_positions_accepted (offenses : List Offense) :
    ((accepted offenses).map (·.position)).Nodup := by
  have greedy := Candidate.greedySelection_accepted offenses
  rw [List.Nodup, List.pairwise_map]
  apply greedy.ordered.imp_of_mem
  intro left right leftMember rightMember before same
  have equal := Candidate.eq_of_offered_of_position (greedy.offered left leftMember)
    (greedy.offered right rightMember) same
  subst equal
  exact lt_irrefl _ before

theorem positions_perm (offenses : List Offense) :
    ((offenses.zipIdx.filter fun entry =>
        decide (TakenAt (accepted offenses) entry.2)).map (·.2)).Perm
      ((accepted offenses).map (·.position)) := by
  have distinct : (offenses.zipIdx.map (·.2)).Nodup := by
    rw [List.zipIdx_map_snd]
    exact List.nodup_range'
  rw [List.perm_ext_iff_of_nodup (distinct.sublist (List.filter_sublist.map _))
    (nodup_positions_accepted offenses)]
  intro position
  simp only [List.mem_map, List.mem_filter, decide_eq_true_eq]
  constructor
  · rintro ⟨entry, ⟨-, taken⟩, rfl⟩
    exact taken
  · rintro ⟨candidate, member, rfl⟩
    have offered := (Candidate.greedySelection_accepted offenses).offered candidate member
    exact ⟨(candidate.offense, candidate.position),
      ⟨List.mem_zipIdx_iff_getElem?.mpr offered.1, candidate, member, rfl⟩, rfl⟩

private theorem countP_corrected (fresh : ∀ offense ∈ offenses, offense.corrected = false) :
    (ofOffenses offenses).offenses.countP (·.corrected) = (ofOffenses offenses).count := by
  have counted : (ofOffenses offenses).offenses.countP (·.corrected) =
      offenses.zipIdx.countP fun entry =>
        decide (TakenAt (accepted offenses) entry.2) := by
    rw [ofOffenses, List.countP_map]
    apply List.countP_congr
    intro entry member
    have stands := List.mem_zipIdx_iff_getElem?.mp member
    rw [decide_eq_true_eq]
    exact corrected_settle_iff entry.2 (fresh entry.1 (List.mem_of_getElem? stands))
  have lengths := (positions_perm offenses).length_eq
  rw [List.length_map, List.length_map] at lengths
  rw [counted, List.countP_eq_length_filter, lengths, count, ofOffenses, List.length_map]

/-! ## The whole correction -/

/-- A correction accepts the greedy selection of the fixes of a report and marks the offenses
accordingly. -/
theorem ofOffenses_greedy (offenses : List Offense)
    (fresh : ∀ offense ∈ offenses, offense.corrected = false) :
    ∃ selection : List Candidate,
      (∀ other, Candidate.GreedySelection offenses other ↔ other = selection) ∧
      (ofOffenses offenses).fixes = selection.map (·.fix) ∧
      (ofOffenses offenses).offenses.length = offenses.length ∧
      (∀ position offense, offenses[position]? = some offense →
        ∃ settled, (ofOffenses offenses).offenses[position]? = some settled ∧
          settled.SameFinding offense ∧
          ((settled.corrected = true ∧ settled.fix = offense.fix) ↔
            TakenAt selection position) ∧
          ((settled.fix = none ∧ settled.corrected = false) ↔
            offense.fix = none ∨ ¬TakenAt selection position)) ∧
      (ofOffenses offenses).offenses.countP (·.corrected) = (ofOffenses offenses).count := by
  have greedy := Candidate.greedySelection_accepted offenses
  refine ⟨accepted offenses, ?_, rfl, ?_, ?_, countP_corrected fresh⟩
  · intro other
    constructor
    · exact fun otherGreedy => otherGreedy.unique greedy
    · rintro rfl
      exact greedy
  · rw [ofOffenses, List.length_map, List.length_zipIdx]
  · intro position offense stands
    have unsettled := fresh offense (List.mem_of_getElem? stands)
    refine ⟨settle (accepted offenses) (offense, position), ?_, settle_sameFinding _ _ _,
      kept_iff unsettled, lost_iff stands unsettled⟩
    rw [getElem?_offenses_ofOffenses, stands, Option.map_some]

/-- A report in which the fix of the first offense overlaps that of the last, which starts earlier.
-/
def crossedReport : List Offense := [
  ⟨"Family/Late", .text "late", .convention, 1, 8, "", some (.write 8 12 "y"), false⟩,
  ⟨"Family/Plain", .text "plain", .convention, 1, 0, "", none, false⟩,
  ⟨"Family/Early", .text "early", .convention, 1, 4, "", some (.write 4 10 "x"), false⟩]

theorem ofOffenses_greedy_crossedReport :
    (∀ offense ∈ crossedReport, offense.corrected = false) ∧
      (ofOffenses crossedReport).fixes = [.write 4 10 "x"] ∧
      (ofOffenses crossedReport).offenses.countP (·.corrected) = 1 := by
  have fresh : ∀ offense ∈ crossedReport, offense.corrected = false := by decide
  rcases ofOffenses_greedy crossedReport fresh with ⟨-, -, -, -, -, counted⟩
  exact ⟨fresh, rfl, counted.trans rfl⟩

end Correction

end FormulaLint
