import FormulaLint.Proofs.SettledOffenses

/-! A report that has been corrected can be corrected again, and nothing comes of it. The fixes that
its offenses still offer are the accepted ones, no two of which overlap, so that all of them are
accepted again. -/

namespace FormulaLint

namespace Candidate

def marked (candidate : Candidate) : Candidate :=
  { candidate with offense := { candidate.offense with corrected := true } }

@[simp] theorem position_marked (candidate : Candidate) :
    candidate.marked.position = candidate.position :=
  rfl

@[simp] theorem fix_marked (candidate : Candidate) : candidate.marked.fix = candidate.fix :=
  rfl

private theorem offeredBy_marked {candidate : Candidate} {offenses : List Offense}
    (accepted : candidate ∈ Correction.accepted offenses) :
    candidate.marked.OfferedBy (Correction.ofOffenses offenses).offenses := by
  rcases (greedySelection_accepted offenses).offered candidate accepted with ⟨stands, has⟩
  have taken : Correction.TakenAt (Correction.accepted offenses) candidate.position :=
    ⟨candidate, accepted, rfl⟩
  rw [OfferedBy, Correction.getElem?_offenses_ofOffenses, position_marked, stands, Option.map_some,
    Correction.settle_of_accepted taken]
  exact ⟨rfl, has⟩

theorem offeredBy_ofOffenses_iff {candidate : Candidate} {offenses : List Offense} :
    candidate.OfferedBy (Correction.ofOffenses offenses).offenses ↔
      candidate ∈ (Correction.accepted offenses).map marked := by
  rw [List.mem_map]
  constructor
  · intro offered
    have ⟨stands, has⟩ := offered
    rw [Correction.getElem?_offenses_ofOffenses] at stands
    rcases Option.map_eq_some_iff.mp stands with ⟨offense, -, settled⟩
    by_cases taken : Correction.TakenAt (Correction.accepted offenses) candidate.position
    · rcases taken with ⟨earlier, accepted, same⟩
      exact ⟨earlier, accepted, eq_of_offered_of_position (offeredBy_marked accepted) offered same⟩
    · rw [Correction.settle_of_rejected taken] at settled
      rw [← settled] at has
      cases has
  · rintro ⟨earlier, accepted, rfl⟩
    exact offeredBy_marked accepted

/-- The accepted candidates are a greedy selection from the corrected report, which leaves none out.
-/
theorem greedySelection_marked (offenses : List Offense) :
    GreedySelection (Correction.ofOffenses offenses).offenses
      ((Correction.accepted offenses).map marked) where
  offered _ member := offeredBy_ofOffenses_iff.mpr member
  ordered := List.pairwise_map.mpr (greedySelection_accepted offenses).ordered
  apart := List.pairwise_map.mpr (greedySelection_accepted offenses).apart
  complete _ offered rejected := absurd (offeredBy_ofOffenses_iff.mp offered) rejected

end Candidate

namespace Correction

private theorem accepted_ofOffenses (offenses : List Offense) :
    accepted (ofOffenses offenses).offenses = (accepted offenses).map Candidate.marked :=
  (Candidate.greedySelection_accepted _).unique (Candidate.greedySelection_marked offenses)

theorem takenAt_marked_iff {selection : List Candidate} {position : Nat} :
    TakenAt (selection.map Candidate.marked) position ↔ TakenAt selection position := by
  simp only [TakenAt, List.mem_map, exists_exists_and_eq_and, Candidate.position_marked]

theorem settle_settle (selection : List Candidate) (offense : Offense) (position : Nat) :
    settle (selection.map Candidate.marked) (settle selection (offense, position), position) =
      settle selection (offense, position) := by
  by_cases taken : TakenAt selection position
  · rw [settle_of_accepted (takenAt_marked_iff.mpr taken), settle_of_accepted taken]
  · rw [settle_of_rejected fun again => taken (takenAt_marked_iff.mp again),
      settle_of_rejected taken]

/-- A corrected report is corrected already: the same fixes are accepted again in the same order,
none is dropped, the offenses stay as they are, and any text is corrected in the same way. -/
theorem ofOffenses_again (offenses : List Offense) :
    let plan := ofOffenses offenses
    (ofOffenses plan.offenses).fixes = plan.fixes ∧
      (ofOffenses plan.offenses).offenses = plan.offenses ∧
      notices plan.offenses = [] ∧
      ∀ source, (ofOffenses plan.offenses).splice? source = plan.splice? source := by
  intro plan
  have again : accepted plan.offenses = (accepted offenses).map Candidate.marked :=
    accepted_ofOffenses offenses
  have fixes : (ofOffenses plan.offenses).fixes = plan.fixes := by
    simp only [plan, ofOffenses] at again ⊢
    simp only [again, List.map_map, Function.comp_def, Candidate.fix_marked]
  have settled : (ofOffenses plan.offenses).offenses = plan.offenses := by
    apply List.ext_getElem?
    intro position
    rw [getElem?_offenses_ofOffenses, again, getElem?_offenses_ofOffenses, Option.map_map]
    refine Option.map_congr fun offense _ => ?_
    exact settle_settle (accepted offenses) offense position
  have undropped : notices plan.offenses = [] := by
    simp only [notices, List.map_eq_nil_iff, List.filter_eq_nil_iff]
    intro candidate listed
    have offered := Candidate.mem_inSourceOrder_iff.mp listed
    rw [Candidate.offeredBy_ofOffenses_iff, ← again] at offered
    simp only [Bool.not_eq_true', Bool.not_eq_false, List.any_eq_true, decide_eq_true_eq]
    exact ⟨candidate, offered, rfl⟩
  refine ⟨fixes, settled, undropped, ?_⟩
  intro source
  rw [splice?, splice?, fixes]

end Correction

end FormulaLint
