/-! Stretches of a text. Offsets count characters; a negative offset counts from the end, and an
offset beyond either end stands for that end. -/

namespace FormulaLint.Text

def resolve (length : Nat) (offset : Int) : Nat :=
  if offset < 0 then (length + offset).toNat else min offset.toNat length

def segment (chars : List Char) (start stop : Int) : List Char :=
  (chars.take (resolve chars.length stop)).drop (resolve chars.length start)

/-- The characters from one offset up to another, and no character if the second does not lie behind
the first. -/
def slice (text : String) (start stop : Int) : String :=
  String.ofList (segment text.toList start stop)

theorem resolve_natCast (length offset : Nat) : resolve length offset = min offset length := by
  unfold resolve
  rw [if_neg (by omega), Int.toNat_natCast]

theorem segment_natCast (chars : List Char) (start stop : Nat) :
    segment chars start stop = (chars.take stop).drop start := by
  have front : chars.take (min stop chars.length) = chars.take stop :=
    List.take_eq_take_iff.mpr (by omega)
  simp only [segment, resolve_natCast, front]
  by_cases inside : start ≤ chars.length
  · rw [Nat.min_eq_left inside]
  · rw [List.drop_of_length_le, List.drop_of_length_le]
    all_goals rw [List.length_take]; omega

@[simp] theorem toList_slice (text : String) (start stop : Int) :
    (slice text start stop).toList = segment text.toList start stop :=
  String.toList_ofList

example : slice "formula" 1 (-1) = "ormul" := rfl

example : slice "formula" 5 2 = "" := rfl

end FormulaLint.Text
