import FormulaLint.Proofs.GreedySelection

/-! A correction does not depend on the order in which a report lists its offenses. Whether a fix is
accepted is settled by the stretches of the fixes alone, and sorted stretches are the same for every
order of the report. -/

namespace FormulaLint

def Fix.stretch (fix : Fix) : Int ×ₗ Int :=
  toLex (fix.start, fix.stop)

theorem Fix.stretch_eq_iff {left right : Fix} :
    left.stretch = right.stretch ↔ left.start = right.start ∧ left.stop = right.stop := by
  rw [stretch, stretch, toLex_inj, Prod.mk.injEq]

theorem Fix.overlaps_congr {left right other another : Fix} (same : left.stretch = right.stretch)
    (otherSame : other.stretch = another.stretch) :
    left.overlaps other = right.overlaps another := by
  rw [stretch_eq_iff] at same otherSame
  rw [overlaps, overlaps, same.1, same.2, otherSame.1, otherSame.2]

namespace Candidate

variable {offenses others : List Offense} {left right : List Candidate}

def stretch (candidate : Candidate) : Int ×ₗ Int :=
  candidate.fix.stretch

/-! ## Choosing by stretches -/

theorem any_overlaps_congr {candidate other : Candidate} (same : candidate.stretch = other.stretch)
    (alike : left.map stretch = right.map stretch) :
    (left.any fun earlier => candidate.fix.overlaps earlier.fix) =
      right.any fun earlier => other.fix.overlaps earlier.fix := by
  induction left generalizing right with
  | nil =>
      rw [List.map_nil, eq_comm, List.map_eq_nil_iff] at alike
      rw [alike]
      rfl
  | cons head tail induction =>
      rcases List.map_eq_cons_iff.mp alike.symm with ⟨first, rest, rfl, firstSame, restSame⟩
      rw [List.any_cons, List.any_cons, induction restSame.symm,
        Fix.overlaps_congr same firstSame.symm]

/-- Candidates with the same stretches are chosen and passed over alike. -/
theorem map_stretch_choose {accepted chosen : List Candidate}
    (acceptedAlike : accepted.map stretch = chosen.map stretch)
    (alike : left.map stretch = right.map stretch) :
    (choose accepted left).map stretch = (choose chosen right).map stretch := by
  induction left generalizing right accepted chosen with
  | nil =>
      rw [List.map_nil, eq_comm, List.map_eq_nil_iff] at alike
      rw [alike]
      exact acceptedAlike
  | cons head tail induction =>
      rcases List.map_eq_cons_iff.mp alike.symm with ⟨first, rest, rfl, firstSame, restSame⟩
      rw [choose, choose, any_overlaps_congr firstSame.symm acceptedAlike]
      split
      · exact induction acceptedAlike restSame.symm
      · apply induction _ restSame.symm
        rw [List.map_append, List.map_append, acceptedAlike, List.map_singleton,
          List.map_singleton, firstSame]

/-! ## Sorting by stretches -/

private theorem map_fix_ofOffenses (offenses : List Offense) :
    (ofOffenses offenses).map (·.fix) = offenses.filterMap (·.fix) := by
  have listed : offenses.filterMap (·.fix) =
      offenses.zipIdx.filterMap fun entry => entry.1.fix := by
    conv_lhs => rw [← List.zipIdx_map_fst 0 offenses, List.filterMap_map]
    rfl
  rw [listed, ofOffenses, List.map_filterMap]
  simp only [Option.map_map, Function.comp_def, Option.map_id']

theorem map_stretch_inSourceOrder_perm (offenses : List Offense) :
    ((inSourceOrder offenses).map stretch).Perm
      ((offenses.filterMap (·.fix)).map Fix.stretch) := by
  rw [← map_fix_ofOffenses, List.map_map]
  exact (stableSort_perm _).map _

private theorem pairwise_stretch_inSourceOrder (offenses : List Offense) :
    ((inSourceOrder offenses).map stretch).Pairwise (· ≤ ·) := by
  rw [List.pairwise_map]
  apply (pairwise_before_inSourceOrder offenses).imp
  intro left right before
  rw [before_iff] at before
  rw [stretch, stretch, Fix.stretch, Fix.stretch, Prod.Lex.toLex_le_toLex]
  omega

theorem map_stretch_inSourceOrder (same : offenses.Perm others) :
    (inSourceOrder offenses).map stretch = (inSourceOrder others).map stretch := by
  have reordered : ((inSourceOrder offenses).map stretch).Perm
      ((inSourceOrder others).map stretch) :=
    (map_stretch_inSourceOrder_perm offenses).trans
      (((same.filterMap _).map _).trans (map_stretch_inSourceOrder_perm others).symm)
  exact reordered.eq_of_pairwise (fun _ _ _ _ before after => le_antisymm before after)
    (pairwise_stretch_inSourceOrder offenses) (pairwise_stretch_inSourceOrder others)

end Candidate

namespace Correction

variable {offenses others : List Offense}

theorem fixes_eq_of_map_stretch {left right : List Fix}
    (alike : left.map Fix.stretch = right.map Fix.stretch)
    (settled : ∀ fix ∈ left, ∀ other ∈ right, fix.stretch = other.stretch → fix = other) :
    left = right := by
  induction left generalizing right with
  | nil =>
      rw [List.map_nil, eq_comm, List.map_eq_nil_iff] at alike
      exact alike.symm
  | cons head tail induction =>
      rcases List.map_eq_cons_iff.mp alike.symm with ⟨first, rest, rfl, firstSame, restSame⟩
      rw [settled head List.mem_cons_self first List.mem_cons_self firstSame.symm]
      congr 1
      apply induction restSame.symm
      intro fix member other otherMember
      exact settled fix (List.mem_cons_of_mem head member) other
        (List.mem_cons_of_mem first otherMember)

/-- Reordering a report changes neither the stretches that are accepted nor their order. If offenses
with the same stretch also have the same replacement, it changes neither the accepted fixes nor what
they make of any text. -/
theorem ofOffenses_perm (same : offenses.Perm others) :
    (ofOffenses offenses).fixes.map Fix.stretch = (ofOffenses others).fixes.map Fix.stretch ∧
    ((∀ offense ∈ offenses, ∀ another ∈ offenses, ∀ fix other, offense.fix = some fix →
        another.fix = some other → fix.stretch = other.stretch →
          fix.replacement = other.replacement) →
      (ofOffenses offenses).fixes = (ofOffenses others).fixes ∧
        ∀ source, (ofOffenses offenses).splice? source = (ofOffenses others).splice? source) := by
  have alike : (ofOffenses offenses).fixes.map Fix.stretch =
      (ofOffenses others).fixes.map Fix.stretch := by
    rw [ofOffenses, ofOffenses, List.map_map, List.map_map]
    exact Candidate.map_stretch_choose rfl (Candidate.map_stretch_inSourceOrder same)
  refine ⟨alike, ?_⟩
  intro settled
  have fixes : (ofOffenses offenses).fixes = (ofOffenses others).fixes := by
    apply fixes_eq_of_map_stretch alike
    intro fix member other otherMember stretches
    rcases exists_offense_of_mem_fixes member with ⟨offense, listed, has⟩
    rcases exists_offense_of_mem_fixes otherMember with ⟨another, otherListed, otherHas⟩
    have replacements :=
      settled offense listed another (same.mem_iff.mpr otherListed) fix other has otherHas stretches
    rcases Fix.stretch_eq_iff.mp stretches with ⟨starts, stops⟩
    rcases fix with ⟨start, stop, replacement⟩
    rcases other with ⟨otherStart, otherStop, otherReplacement⟩
    simp only at starts stops replacements
    rw [starts, stops, replacements]
  refine ⟨fixes, ?_⟩
  intro source
  rw [splice?, splice?, fixes]

/-- A report with an insertion that two rules ask for at the end of one replacement and in the midst
of another one, which reaches into the first. -/
def doubledReport : List Offense := [
  ⟨"Family/Once", .text "once", .convention, 1, 4, "abcdef", some (.write 4 4 ">"), false⟩,
  ⟨"Family/Across", .text "across", .convention, 1, 3, "abcdef", some (.write 3 6 "?"), false⟩,
  ⟨"Family/Plain", .text "plain", .convention, 1, 0, "abcdef", none, false⟩,
  ⟨"Family/Twice", .text "twice", .convention, 1, 4, "abcdef", some (.write 4 4 ">"), false⟩,
  ⟨"Family/Front", .text "front", .convention, 1, 2, "abcdef", some (.write 2 4 "xy"), false⟩]

theorem splice?_doubledReport_reverse :
    doubledReport.Perm doubledReport.reverse ∧
      (ofOffenses doubledReport.reverse).fixes.map Fix.stretch = [toLex (2, 4), toLex (4, 4)] ∧
      (ofOffenses doubledReport.reverse).splice? "abcdef" = some "abxy>ef" := by
  have same : doubledReport.Perm doubledReport.reverse := doubledReport.reverse_perm.symm
  have written : ∀ offense ∈ doubledReport, ∀ fix, offense.fix = some fix →
      fix.replacement =
        .text (if fix.start = 2 then "xy" else if fix.start = 3 then "?" else ">") := by
    intro offense member fix has
    simp only [doubledReport, List.mem_cons, List.not_mem_nil, or_false] at member
    rcases member with rfl | rfl | rfl | rfl | rfl
    all_goals cases has
    all_goals rfl
  have settled : ∀ offense ∈ doubledReport, ∀ another ∈ doubledReport, ∀ fix other,
      offense.fix = some fix → another.fix = some other → fix.stretch = other.stretch →
        fix.replacement = other.replacement := by
    intro offense member another otherMember fix other has otherHas stretches
    rw [written offense member fix has, written another otherMember other otherHas,
      (Fix.stretch_eq_iff.mp stretches).1]
  rcases ofOffenses_perm same with ⟨stretches, equal⟩
  exact ⟨same, stretches.symm.trans rfl, ((equal settled).2 "abcdef").symm.trans rfl⟩

end Correction

end FormulaLint
