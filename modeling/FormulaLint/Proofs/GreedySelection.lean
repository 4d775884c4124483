import FormulaLint.Correction
import Mathlib.Data.Prod.Lex
import Mathlib.Data.List.Pairwise
import Mathlib.Data.List.Sort
import Mathlib.Data.List.Induction

/-! Which fixes a correction accepts: exactly one selection of the fixes of a report is greedy in
source order, and it is the one that a correction makes. -/

namespace FormulaLint

theorem Fix.overlaps_comm (left right : Fix) : left.overlaps right = right.overlaps left := by
  have sameStart : decide (left.start = right.start) = decide (right.start = left.start) :=
    decide_eq_decide.mpr eq_comm
  unfold overlaps
  rw [sameStart, Bool.and_comm (decide (left.start = left.stop)),
    Bool.and_comm (decide (left.start < right.stop))]

namespace Candidate

/-! ## Candidates -/

/-- A report offers a candidate if the offense at the candidate's position has the candidate's fix.
-/
def OfferedBy (candidate : Candidate) (offenses : List Offense) : Prop :=
  offenses[candidate.position]? = some candidate.offense ∧
    candidate.offense.fix = some candidate.fix

def key (candidate : Candidate) : Int ×ₗ Int ×ₗ Nat :=
  toLex (candidate.fix.start, toLex (candidate.fix.stop, candidate.position))

def Before (left right : Candidate) : Prop :=
  left.key < right.key

def Apart (left right : Candidate) : Prop :=
  left.fix.overlaps right.fix = false

instance : Std.Irrefl Before where
  irrefl candidate := lt_irrefl candidate.key

instance : Std.Antisymm Before where
  antisymm _ _ before after := absurd before (lt_asymm after)

instance : Std.Symm Apart where
  symm left right apart := (right.fix.overlaps_comm left.fix).trans apart

theorem mem_ofOffenses_iff {candidate : Candidate} {offenses : List Offense} :
    candidate ∈ ofOffenses offenses ↔ candidate.OfferedBy offenses := by
  rw [ofOffenses, OfferedBy, List.mem_filterMap]
  constructor
  · rintro ⟨entry, member, made⟩
    rcases Option.map_eq_some_iff.mp made with ⟨fix, has, rfl⟩
    exact ⟨List.mem_zipIdx_iff_getElem?.mp member, has⟩
  · rintro ⟨stands, has⟩
    refine ⟨(candidate.offense, candidate.position), List.mem_zipIdx_iff_getElem?.mpr stands, ?_⟩
    rw [has]
    rfl

theorem eq_of_offered_of_position {offenses : List Offense} {left right : Candidate}
    (leftOffered : left.OfferedBy offenses) (rightOffered : right.OfferedBy offenses)
    (same : left.position = right.position) : left = right := by
  rcases left with ⟨leftPosition, leftOffense, leftFix⟩
  rcases right with ⟨rightPosition, rightOffense, rightFix⟩
  rcases leftOffered with ⟨leftStands, leftHas⟩
  rcases rightOffered with ⟨rightStands, rightHas⟩
  simp only at same leftStands rightStands leftHas rightHas
  subst same
  rw [leftStands] at rightStands
  cases rightStands
  rw [leftHas] at rightHas
  cases rightHas
  rfl

private theorem pairwise_position_ofOffenses (offenses : List Offense) :
    (ofOffenses offenses).Pairwise fun left right => left.position < right.position := by
  rw [ofOffenses, List.pairwise_filterMap]
  have positions : offenses.zipIdx.Pairwise fun left right => left.2 < right.2 := by
    have ascending : (offenses.zipIdx.map (·.2)).Pairwise (· < ·) := by
      rw [List.zipIdx_map_snd]
      exact List.pairwise_lt_range'
    exact List.pairwise_map.mp ascending
  apply positions.imp
  intro left right before leftMade leftEqual rightMade rightEqual
  rcases Option.map_eq_some_iff.mp leftEqual with ⟨leftFix, -, rfl⟩
  rcases Option.map_eq_some_iff.mp rightEqual with ⟨rightFix, -, rfl⟩
  exact before

/-! ## Source order -/

theorem notAfter_eq_true_iff (left right : Candidate) :
    left.notAfter right = true ↔
      toLex (left.fix.start, left.fix.stop) ≤ toLex (right.fix.start, right.fix.stop) := by
  rw [notAfter, Prod.Lex.toLex_le_toLex]
  split
  · next starts => simp [starts]
  · next starts =>
      rw [Decidable.not_not] at starts
      simp [starts]

theorem before_iff (left right : Candidate) :
    left.Before right ↔ left.fix.start < right.fix.start ∨
      left.fix.start = right.fix.start ∧ (left.fix.stop < right.fix.stop ∨
        left.fix.stop = right.fix.stop ∧ left.position < right.position) := by
  simp only [Before, key, Prod.Lex.toLex_lt_toLex]

theorem mem_inSourceOrder_iff {candidate : Candidate} {offenses : List Offense} :
    candidate ∈ inSourceOrder offenses ↔ candidate.OfferedBy offenses := by
  rw [inSourceOrder, mem_stableSort, mem_ofOffenses_iff]

/-- What has one stretch stays in report order, so candidates come in the order of their keys. -/
theorem pairwise_before_inSourceOrder (offenses : List Offense) :
    (inSourceOrder offenses).Pairwise Before := by
  have transitive : ∀ first second third : Candidate, first.notAfter second = true →
      second.notAfter third = true → first.notAfter third = true := by
    intro first second third before after
    rw [notAfter_eq_true_iff] at *
    exact le_trans before after
  have total : ∀ left right : Candidate, (left.notAfter right || right.notAfter left) = true := by
    intro left right
    rw [Bool.or_eq_true, notAfter_eq_true_iff, notAfter_eq_true_iff]
    exact le_total _ _
  have ordered := pairwise_precedes_stableSort transitive total (ofOffenses offenses)
  have stable := pairwise_stableSort transitive total (pairwise_position_ofOffenses offenses)
  apply (ordered.and stable).imp
  rintro left right ⟨before, tie⟩
  rw [notAfter_eq_true_iff, Prod.Lex.toLex_le_toLex] at before tie
  simp only at before tie
  rw [before_iff]
  omega

/-! ## Choosing -/

theorem choose_append (accepted front back : List Candidate) :
    choose accepted (front ++ back) = choose (choose accepted front) back := by
  induction front generalizing accepted with
  | nil => rfl
  | cons head tail induction =>
      rw [List.cons_append, choose, choose]
      split <;> exact induction _

theorem exists_choose_eq_append (accepted rest : List Candidate) :
    ∃ picked, choose accepted rest = accepted ++ picked ∧ picked.Sublist rest := by
  induction rest generalizing accepted with
  | nil => exact ⟨[], by rw [choose, List.append_nil], .slnil⟩
  | cons head tail induction =>
      rw [choose]
      split
      · rcases induction accepted with ⟨picked, equal, sublist⟩
        exact ⟨picked, equal, sublist.cons head⟩
      · rcases induction (accepted ++ [head]) with ⟨picked, equal, sublist⟩
        refine ⟨head :: picked, ?_, sublist.cons_cons head⟩
        rw [equal, List.append_assoc, List.singleton_append]

private theorem choose_sublist (candidates : List Candidate) :
    (choose [] candidates).Sublist candidates := by
  rcases exists_choose_eq_append [] candidates with ⟨picked, equal, sublist⟩
  rwa [equal, List.nil_append]

private theorem pairwise_apart_choose {accepted : List Candidate} (rest : List Candidate)
    (apart : accepted.Pairwise Apart) : (choose accepted rest).Pairwise Apart := by
  induction rest generalizing accepted with
  | nil => exact apart
  | cons head tail induction =>
      rw [choose]
      split
      · exact induction apart
      · next free =>
          apply induction
          rw [List.pairwise_append]
          refine ⟨apart, List.pairwise_singleton _ _, ?_⟩
          intro left leftMember right rightMember
          rw [List.mem_singleton] at rightMember
          subst rightMember
          rw [Bool.not_eq_true, List.any_eq_false] at free
          have free := free left leftMember
          rw [Bool.not_eq_true, Fix.overlaps_comm] at free
          exact free

private theorem exists_overlap_of_not_mem_choose {candidate : Candidate}
    {front back : List Candidate}
    (rejected : candidate ∉ choose [] (front ++ candidate :: back)) :
    ∃ earlier ∈ choose [] front, candidate.fix.overlaps earlier.fix = true := by
  rw [choose_append, choose] at rejected
  split at rejected
  · next blocked => exact List.any_eq_true.mp blocked
  · rcases exists_choose_eq_append (choose [] front ++ [candidate]) back with ⟨picked, equal, -⟩
    rw [equal] at rejected
    simp at rejected

/-! ## The greedy selection -/

/-- A selection is greedy if it takes offered candidates in source order, no two of which overlap,
and leaves out only what overlaps a candidate that it takes earlier in that order. -/
structure GreedySelection (offenses : List Offense) (selection : List Candidate) : Prop where
  offered : ∀ candidate ∈ selection, candidate.OfferedBy offenses
  ordered : selection.Pairwise Before
  apart : selection.Pairwise Apart
  complete : ∀ candidate : Candidate, candidate.OfferedBy offenses → candidate ∉ selection →
    ∃ earlier ∈ selection, earlier.Before candidate ∧
      candidate.fix.overlaps earlier.fix = true

theorem greedySelection_accepted (offenses : List Offense) :
    GreedySelection offenses (Correction.accepted offenses) where
  offered candidate member :=
    mem_inSourceOrder_iff.mp ((choose_sublist _).subset member)
  ordered := (pairwise_before_inSourceOrder offenses).sublist (choose_sublist _)
  apart := pairwise_apart_choose _ .nil
  complete candidate offered rejected := by
    rcases List.append_of_mem (mem_inSourceOrder_iff.mpr offered) with ⟨front, back, split⟩
    have ordered := pairwise_before_inSourceOrder offenses
    unfold Correction.accepted at rejected ⊢
    rw [split] at rejected ordered ⊢
    rcases exists_overlap_of_not_mem_choose rejected with ⟨earlier, member, overlaps⟩
    refine ⟨earlier, ?_, ?_, overlaps⟩
    · rw [choose_append]
      rcases exists_choose_eq_append (choose [] front) (candidate :: back) with ⟨picked, equal, -⟩
      rw [equal]
      exact List.mem_append_left picked member
    · exact (List.pairwise_append.mp ordered).2.2 earlier ((choose_sublist front).subset member)
        candidate List.mem_cons_self

namespace GreedySelection

variable {offenses : List Offense} {left right : List Candidate}

theorem mem_of_mem (leftGreedy : GreedySelection offenses left)
    (rightGreedy : GreedySelection offenses right) {candidate : Candidate}
    (agree : ∀ earlier : Candidate, earlier.OfferedBy offenses → earlier.Before candidate →
      (earlier ∈ left ↔ earlier ∈ right))
    (member : candidate ∈ left) : candidate ∈ right := by
  by_contra rejected
  rcases rightGreedy.complete candidate (leftGreedy.offered candidate member) rejected
      with ⟨earlier, taken, before, overlaps⟩
  have takenLeft := (agree earlier (rightGreedy.offered earlier taken) before).mpr taken
  have different : candidate ≠ earlier := by
    rintro rfl
    exact lt_irrefl _ before
  have apart : candidate.Apart earlier := leftGreedy.apart.forall member takenLeft different
  rw [Apart, overlaps] at apart
  cases apart

/-- There is one greedy selection only: from the first candidate on, what has been taken so far
settles whether the next one is taken. -/
theorem unique (leftGreedy : GreedySelection offenses left)
    (rightGreedy : GreedySelection offenses right) : left = right := by
  have agree : ∀ front back, inSourceOrder offenses = front ++ back →
      ∀ candidate ∈ front, candidate ∈ left ↔ candidate ∈ right := by
    intro front
    induction front using List.reverseRecOn with
    | nil => exact fun _ _ _ member => nomatch member
    | append_singleton front last induction =>
        intro back split candidate member
        rw [List.append_assoc, List.singleton_append] at split
        have before := induction (last :: back) split
        rcases List.mem_append.mp member with inFront | atEnd
        · exact before candidate inFront
        · rw [List.mem_singleton] at atEnd
          subst atEnd
          have ordered := pairwise_before_inSourceOrder offenses
          rw [split, List.pairwise_append, List.pairwise_cons] at ordered
          have earlierAgree : ∀ earlier : Candidate, earlier.OfferedBy offenses →
              earlier.Before candidate → (earlier ∈ left ↔ earlier ∈ right) := by
            intro earlier offered comesBefore
            have listed := mem_inSourceOrder_iff.mpr offered
            rw [split, List.mem_append, List.mem_cons] at listed
            rcases listed with inFront | same | behind
            · exact before earlier inFront
            · subst same
              exact absurd comesBefore (lt_irrefl _)
            · exact absurd comesBefore (lt_asymm (ordered.2.1.1 earlier behind))
          exact ⟨leftGreedy.mem_of_mem rightGreedy earlierAgree,
            rightGreedy.mem_of_mem leftGreedy fun earlier offered comesBefore =>
              (earlierAgree earlier offered comesBefore).symm⟩
  apply leftGreedy.ordered.eq_of_mem_iff rightGreedy.ordered
  intro candidate
  have all := agree (inSourceOrder offenses) [] (List.append_nil _).symm candidate
  constructor
  · intro member
    exact (all (mem_inSourceOrder_iff.mpr (leftGreedy.offered candidate member))).mp member
  · intro member
    exact (all (mem_inSourceOrder_iff.mpr (rightGreedy.offered candidate member))).mpr member

end GreedySelection

end Candidate

theorem Correction.exists_offense_of_mem_fixes {offenses : List Offense} {fix : Fix}
    (member : fix ∈ (ofOffenses offenses).fixes) :
    ∃ offense ∈ offenses, offense.fix = some fix := by
  rcases List.mem_map.mp member with ⟨candidate, accepted, rfl⟩
  rcases (Candidate.greedySelection_accepted offenses).offered candidate accepted with ⟨stands, has⟩
  exact ⟨candidate.offense, List.mem_of_getElem? stands, has⟩

end FormulaLint
