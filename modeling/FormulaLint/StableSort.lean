/-! Sorting that keeps equal elements in the order in which they came. -/

namespace FormulaLint

def insertStable {α : Type} (precedes : α → α → Bool) (value : α) : List α → List α
  | [] => [value]
  | head :: tail =>
      if precedes value head then value :: head :: tail
      else head :: insertStable precedes value tail

/-- Sort a list by a relation under which every two elements are comparable. -/
def stableSort {α : Type} (precedes : α → α → Bool) : List α → List α
  | [] => []
  | head :: tail => insertStable precedes head (stableSort precedes tail)

section

variable {α : Type} {precedes : α → α → Bool}

theorem insertStable_perm (value : α) (values : List α) :
    (insertStable precedes value values).Perm (value :: values) := by
  induction values with
  | nil => exact .refl _
  | cons head tail induction =>
      rw [insertStable]
      split
      · exact .refl _
      · exact (induction.cons head).trans (.swap value head tail)

theorem stableSort_perm (values : List α) : (stableSort precedes values).Perm values := by
  induction values with
  | nil => exact .refl _
  | cons head tail induction =>
      exact (insertStable_perm head _).trans (induction.cons head)

theorem mem_stableSort {value : α} {values : List α} :
    value ∈ stableSort precedes values ↔ value ∈ values :=
  (stableSort_perm values).mem_iff

/-! ## Renamed elements -/

section

variable {β : Type} {compares : β → β → Bool} {change : α → β}

theorem insertStable_map {value : α} {values : List α}
    (agree : ∀ other ∈ values, compares (change value) (change other) = precedes value other) :
    insertStable compares (change value) (values.map change) =
      (insertStable precedes value values).map change := by
  induction values with
  | nil => rfl
  | cons head tail induction =>
      rcases List.forall_mem_cons.mp agree with ⟨first, later⟩
      rw [List.map_cons, insertStable, insertStable, first]
      split
      · rfl
      · rw [induction later, List.map_cons]

theorem stableSort_map {values : List α}
    (agree : ∀ left ∈ values, ∀ right ∈ values,
      compares (change left) (change right) = precedes left right) :
    stableSort compares (values.map change) = (stableSort precedes values).map change := by
  induction values with
  | nil => rfl
  | cons head tail induction =>
      have inTail := induction fun left leftMember right rightMember =>
        agree left (List.mem_cons_of_mem _ leftMember) right (List.mem_cons_of_mem _ rightMember)
      rw [List.map_cons, stableSort, stableSort, inTail]
      apply insertStable_map
      intro other member
      exact agree head List.mem_cons_self other
        (List.mem_cons_of_mem _ (mem_stableSort.mp member))

end

/-! ## Where elements come to stand -/

theorem insertStable_append {value : α} {front back : List α}
    (passed : ∀ other ∈ front, precedes value other = false)
    (stopped : ∀ other ∈ back.head?, precedes value other = true) :
    insertStable precedes value (front ++ back) = front ++ value :: back := by
  induction front with
  | nil =>
      cases back with
      | nil => rfl
      | cons head tail =>
          have reached : precedes value head = true := stopped head rfl
          simp [insertStable, reached]
  | cons head tail induction =>
      have behind : precedes value head = false := passed head List.mem_cons_self
      have rest := induction fun other member => passed other (List.mem_cons_of_mem _ member)
      simp [insertStable, behind, rest]

theorem stableSort_eq_reverse {values : List α}
    (backward : values.Pairwise fun left right => precedes left right = false) :
    stableSort precedes values = values.reverse := by
  induction backward with
  | nil => rfl
  | @cons head tail last _ induction =>
      have behindAll : insertStable precedes head (tail.reverse ++ []) = tail.reverse ++ [head] :=
        insertStable_append (fun other member => last other (List.mem_reverse.mp member)) (by simp)
      rw [List.append_nil] at behindAll
      rw [stableSort, induction, List.reverse_cons, behindAll]

section

variable (transitive : ∀ first second third, precedes first second = true →
    precedes second third = true → precedes first third = true)
variable (total : ∀ left right, (precedes left right || precedes right left) = true)

include transitive total

/-- The sort is the stable sort of the library. -/
theorem stableSort_eq_mergeSort (values : List α) :
    stableSort precedes values = values.mergeSort precedes := by
  induction values with
  | nil => rw [stableSort, List.mergeSort_nil]
  | cons head tail induction =>
      rcases List.mergeSort_cons transitive total head tail with ⟨front, back, whole, parts, passed⟩
      rw [stableSort, induction, parts, whole]
      apply insertStable_append
      · intro other member
        simpa using passed other member
      · intro other first
        have ordered := List.pairwise_mergeSort transitive total (head :: tail)
        rw [whole] at ordered
        have behind := (List.pairwise_append.mp ordered).2.1
        exact (List.pairwise_cons.mp behind).1 other (List.mem_of_mem_head? first)

/-- The sorted list without its first element is the sorted rest: the element stands behind those
that it may not precede. -/
theorem exists_stableSort_cons (head : α) (tail : List α) :
    ∃ front back, stableSort precedes (head :: tail) = front ++ head :: back ∧
      stableSort precedes tail = front ++ back ∧
      ∀ other ∈ front, precedes head other = false := by
  rw [stableSort_eq_mergeSort transitive total, stableSort_eq_mergeSort transitive total]
  rcases List.mergeSort_cons transitive total head tail with ⟨front, back, whole, rest, passed⟩
  exact ⟨front, back, whole, rest, fun other member => by simpa using passed other member⟩

theorem pairwise_precedes_stableSort (values : List α) :
    (stableSort precedes values).Pairwise fun left right => precedes left right = true := by
  rw [stableSort_eq_mergeSort transitive total]
  exact List.pairwise_mergeSort transitive total values

/-- What is left out may be left out before the rest is sorted. -/
theorem filter_stableSort (keeps : α → Bool) (values : List α) :
    (stableSort precedes values).filter keeps = stableSort precedes (values.filter keeps) := by
  induction values with
  | nil => rfl
  | cons head tail induction =>
      rcases exists_stableSort_cons transitive total head tail
          with ⟨front, back, whole, rest, passed⟩
      rw [rest, List.filter_append] at induction
      rw [whole, List.filter_append, List.filter_cons, List.filter_cons]
      split
      · rw [stableSort, ← induction, insertStable_append]
        · intro other member
          exact passed other (List.mem_filter.mp member).1
        · intro other first
          have ordered := pairwise_precedes_stableSort transitive total (head :: tail)
          rw [whole] at ordered
          have behind := (List.pairwise_append.mp ordered).2.1
          exact List.rel_of_pairwise_cons behind
            (List.mem_filter.mp (List.mem_of_mem_head? first)).1
      · exact induction

/-- Elements that are equal in the order stand as they stood before. -/
theorem pairwise_stableSort {before : α → α → Prop} {values : List α}
    (given : values.Pairwise before) :
    (stableSort precedes values).Pairwise fun left right =>
      precedes right left = true → before left right := by
  induction given with
  | nil => exact .nil
  | @cons head tail first _ induction =>
      rcases exists_stableSort_cons transitive total head tail
          with ⟨front, back, whole, rest, passed⟩
      rw [rest, List.pairwise_append] at induction
      rcases induction with ⟨inFront, inBack, across⟩
      rw [whole, List.pairwise_append, List.pairwise_cons]
      refine ⟨inFront, ⟨?_, inBack⟩, ?_⟩
      · intro other member _
        have later : other ∈ stableSort precedes tail := by
          rw [rest]
          exact List.mem_append_right front member
        exact first other (mem_stableSort.mp later)
      · intro left leftMember right rightMember
        rcases List.mem_cons.mp rightMember with equal | rightMember
        · subst right
          intro reached
          rw [passed left leftMember] at reached
          cases reached
        · exact across left leftMember right rightMember

end

end

end FormulaLint
