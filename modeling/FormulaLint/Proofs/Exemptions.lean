import FormulaLint.Policy

/-! Which rules a policy leaves out. A glob of plain characters covers one id only, and a file of
which neither path nor class is known is left out by restrictions alone. -/

namespace FormulaLint

namespace Glob

def IsPlain (c : Char) : Prop :=
  c ≠ '*' ∧ c ≠ '?' ∧ c ≠ '['

instance (c : Char) : Decidable (IsPlain c) :=
  inferInstanceAs (Decidable (_ ∧ _ ∧ _))

private theorem piecesWithin_of_plain {fuel : Nat} {chars : List Char}
    (plain : ∀ c ∈ chars, IsPlain c)
    (enough : chars.length ≤ fuel) : piecesWithin fuel chars = chars.map .char := by
  induction chars generalizing fuel with
  | nil => cases fuel <;> rfl
  | cons c rest induction =>
      rcases List.forall_mem_cons.mp plain with ⟨⟨star, mark, bracket⟩, later⟩
      cases fuel with
      | zero => cases enough
      | succ fuel =>
          rw [piecesWithin, if_neg star, if_neg mark, if_neg bracket,
            induction later (Nat.le_of_succ_le_succ enough), List.map_cons]

private theorem matchPieces_map_char (wanted chars : List Char) :
    matchPieces (wanted.map .char) chars = decide (wanted = chars) := by
  induction wanted generalizing chars with
  | nil => cases chars <;> simp [matchPieces]
  | cons c rest induction =>
      cases chars with
      | nil => simp [matchPieces]
      | cons head tail => simp [matchPieces, induction, Bool.decide_and, Bool.beq_eq_decide_eq]

theorem covers_of_plain {glob : String} (plain : glob.toList.all (decide <| IsPlain ·) = true)
    (text : String) : covers glob text = decide (glob = text) := by
  have eachPlain : ∀ c ∈ glob.toList, IsPlain c := fun c member =>
    of_decide_eq_true (List.all_eq_true.mp plain c member)
  rw [covers, pieces, piecesWithin_of_plain eachPlain (Nat.le_refl _), matchPieces_map_char]
  simp only [String.toList_inj]

end Glob

theorem Policy.exempts_nowhere (policy : Policy) (rule : String) :
    policy.exempts rule ⟨none, none⟩ = policy.restrictions.any (·.covers rule) := by
  have unconcerned : ∀ exemption : Exemption, exemption.concerns ⟨none, none⟩ = false := by
    rintro ⟨rules, path, className⟩
    cases path <;> cases className <;> simp [Exemption.concerns]
  have unadmitted : ∀ restriction : Restriction, restriction.admits ⟨none, none⟩ = false :=
    fun restriction => rfl
  rw [Bool.eq_iff_iff]
  simp [exempts, unconcerned, unadmitted]

end FormulaLint
