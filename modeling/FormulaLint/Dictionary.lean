/-! Dictionaries with text keys that keep the order in which keys were first given. -/

namespace FormulaLint

abbrev Dictionary (α : Type) := List (String × α)

namespace Dictionary

variable {α β : Type}

/-- Give a key a value: in its place if the key is known, at the end if it is new. -/
def put (key : String) (value : α) : Dictionary α → Dictionary α
  | [] => [(key, value)]
  | entry :: rest =>
      if entry.1 = key then (key, value) :: rest else entry :: put key value rest

def ofPairs (pairs : List (String × α)) : Dictionary α :=
  pairs.foldl (fun dictionary pair => put pair.1 pair.2 dictionary) []

def get? (dictionary : Dictionary α) (key : String) : Option α :=
  (dictionary.find? fun entry => entry.1 = key).map (·.2)

def remove (key : String) (dictionary : Dictionary α) : Dictionary α :=
  dictionary.filter fun entry => entry.1 ≠ key

def mapValues (change : α → β) (dictionary : Dictionary α) : Dictionary β :=
  dictionary.map fun entry => (entry.1, change entry.2)

theorem get?_put (key other : String) (value : α) (dictionary : Dictionary α) :
    get? (put key value dictionary) other =
      if key = other then some value else get? dictionary other := by
  induction dictionary with
  | nil => by_cases equal : key = other <;> simp [put, get?, equal]
  | cons entry rest induction =>
      obtain ⟨name, held⟩ := entry
      simp only [get?] at induction ⊢
      rw [put]
      by_cases known : name = key
      · by_cases equal : key = other <;> simp [known, equal]
      · rw [if_neg known, List.find?_cons, List.find?_cons]
        by_cases equal : name = other
        · have different : key ≠ other := fun same => known (equal.trans same.symm)
          simp [equal, different]
        · simp only [equal, decide_false]
          exact induction

theorem get?_remove (key other : String) (dictionary : Dictionary α) :
    get? (remove key dictionary) other =
      if key = other then none else get? dictionary other := by
  rw [get?, remove, List.find?_filter]
  by_cases equal : key = other
  · simp [equal]
  · have same : ∀ entry : String × α,
        (decide (entry.1 ≠ key) = true ∧ decide (entry.1 = other) = true) ↔ entry.1 = other := by
      intro entry
      simp only [decide_eq_true_eq]
      exact ⟨And.right, fun found => ⟨fun held => equal (held.symm.trans found), found⟩⟩
    simp only [same, if_neg equal, get?]

end Dictionary

end FormulaLint
