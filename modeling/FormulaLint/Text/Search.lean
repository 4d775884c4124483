/-! Looking for one text inside another. -/

namespace FormulaLint.Text

def stripFront : List Char → List Char → Option (List Char)
  | [], rest => some rest
  | _ :: _, [] => none
  | wanted :: front, c :: rest => if wanted = c then stripFront front rest else none

def occurs (part : List Char) : List Char → Bool
  | [] => part.isEmpty
  | c :: rest => (stripFront part (c :: rest)).isSome || occurs part rest

theorem eq_append_of_stripFront {front chars rest : List Char}
    (found : stripFront front chars = some rest) : chars = front ++ rest := by
  induction front generalizing chars with
  | nil =>
      rw [stripFront] at found
      simpa using found
  | cons wanted front induction =>
      cases chars with
      | nil => simp [stripFront] at found
      | cons c tail =>
          rw [stripFront] at found
          split at found
          · next equal => rw [equal, List.cons_append, induction found]
          · simp at found

theorem stripFront_append (front rest : List Char) :
    stripFront front (front ++ rest) = some rest := by
  induction front with
  | nil => rfl
  | cons wanted front induction => simp [stripFront, induction]

theorem stripFront_eq_some_iff {front chars rest : List Char} :
    stripFront front chars = some rest ↔ chars = front ++ rest :=
  ⟨eq_append_of_stripFront, fun equal => equal ▸ stripFront_append front rest⟩

theorem takeWhile_append_of_notMem {sign : Char} {front : List Char} (absent : sign ∉ front)
    (back : List Char) :
    (front ++ back).takeWhile (· != sign) = front ++ back.takeWhile (· != sign) := by
  apply List.takeWhile_append_of_pos
  intro c member
  rw [bne_iff_ne]
  rintro rfl
  exact absent member

def findName (names : List String) : Nat → List Char → Option (Nat × String)
  | position, chars =>
      match names.find? fun name => (stripFront name.toList chars).isSome with
      | some name => some (position, name)
      | none =>
          match chars with
          | [] => none
          | _ :: rest => findName names (position + 1) rest

end FormulaLint.Text
