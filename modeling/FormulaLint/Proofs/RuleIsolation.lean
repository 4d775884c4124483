import FormulaLint.Proofs.ChosenRules

/-! Isolation of rules. Whatever a rule looks at and finds, and wherever it fails, an audit reports
the same about all other rules. -/

namespace FormulaLint

/-- Two catalogues that have the same rules but for one position, where each has its own rule of the
same id and family. -/
structure Catalogue.DiffersAt (left right : Catalogue) (position : Nat) (rule other : Rule) :
    Prop where
  elsewhere : ∀ index, index ≠ position → left.rules[index]? = right.rules[index]?
  inLeft : left.rules[position]? = some rule
  inRight : right.rules[position]? = some other
  id : rule.id = other.id
  family : rule.family = other.family

namespace Catalogue.DiffersAt

variable {left right : Catalogue} {position : Nat} {rule other : Rule}
variable (differs : left.DiffersAt right position rule other)

include differs

private theorem map_rules_eq {Property : Type} (property : Rule → Property)
    (same : property rule = property other) :
    left.rules.map property = right.rules.map property := by
  apply List.ext_getElem?
  intro index
  rw [List.getElem?_map, List.getElem?_map]
  by_cases here : index = position
  · rw [here, differs.inLeft, differs.inRight, Option.map_some, Option.map_some, same]
  · rw [differs.elsewhere index here]

private theorem families_eq : left.families = right.families := by
  rw [Catalogue.families_eq, Catalogue.families_eq, differs.map_rules_eq (·.family) differs.family]

private theorem take_eq : left.rules.take position = right.rules.take position := by
  apply List.ext_getElem?
  intro index
  rw [List.getElem?_take, List.getElem?_take]
  split
  · next before => exact differs.elsewhere index (Nat.ne_of_lt before)
  · rfl

private theorem drop_eq : left.rules.drop (position + 1) = right.rules.drop (position + 1) := by
  apply List.ext_getElem?
  intro index
  rw [List.getElem?_drop, List.getElem?_drop]
  exact differs.elsewhere _ (by omega)

theorem chosenRules_eq :
    left.chosenRules (· != rule.id) = right.chosenRules (· != rule.id) := by
  have parted (rules : List Rule) (held : Rule) (stands : rules[position]? = some held) :
      rules = rules.take position ++ held :: rules.drop (position + 1) := by
    rcases List.getElem?_eq_some_iff.mp stands with ⟨bound, rfl⟩
    rw [← List.drop_eq_getElem_cons bound, List.take_append_drop]
  unfold Catalogue.chosenRules
  rw [parted left.rules rule differs.inLeft, parted right.rules other differs.inRight,
    List.filter_append, List.filter_append, List.filter_cons_of_neg (by simp),
    List.filter_cons_of_neg (by simp [differs.id]), differs.take_eq, differs.drop_eq]

end Catalogue.DiffersAt

namespace Audit

variable {left right : Catalogue} {position : Nat} {rule other : Rule}

/-- A rule that is exchanged for another leaves all reports about the other rules as they are: their
offenses, the order of these, and which of the rules have failed. -/
theorem onRules_run_of_differsAt (differs : left.DiffersAt right position rule other)
    (configuration : Configuration) (formula : Formula) (provenance : Provenance) :
    ((⟨left, configuration⟩ : Audit).run formula provenance).1.onRules (· != rule.id) =
      ((⟨right, configuration⟩ : Audit).run formula provenance).1.onRules (· != rule.id) := by
  have agree : AgreeOn ⟨left, configuration⟩ ⟨right, configuration⟩ formula provenance provenance
      (· != rule.id) := {
    rules := differs.chosenRules_eq
    families := by
      simp only [Catalogue.chosenFamilies, differs.families_eq, differs.chosenRules_eq]
    leavesOut := fun _ _ => rfl
    detect := fun _ _ => rfl }
  exact agree.onRules_run

def steadyNames : Catalogue :=
  .ofFaultless [nameRule "Name" "First" .descending none, nameRule "Name" "Second" .descending none,
    nameRule "Name" "Third" .descending none] (by decide)

def failingNames : Catalogue :=
  .ofFaultless [nameRule "Name" "First" .descending none,
    nameRule "Name" "Second" .descending (some "a"), nameRule "Name" "Third" .descending none]
    (by decide)

theorem onRules_run_failingNames :
    steadyNames.DiffersAt failingNames 1 (nameRule "Name" "Second" .descending none)
        (nameRule "Name" "Second" .descending (some "a")) ∧
      let steady := ((⟨steadyNames, {}⟩ : Audit).run nameFormula ⟨none, none⟩).1
      let failing := ((⟨failingNames, {}⟩ : Audit).run nameFormula ⟨none, none⟩).1
      steady.onRules (· != "Name/Second") = failing.onRules (· != "Name/Second") ∧
        failing.failedRules = ["Name/Second"] ∧
        steady.offenses.map (fun offense => (offense.rule, offense.column)) =
          [("Name/Third", 2), ("Name/Second", 2), ("Name/First", 2),
            ("Name/Third", 0), ("Name/Second", 0), ("Name/First", 0)] ∧
        failing.offenses.map (fun offense => (offense.rule, offense.column)) =
          [("Name/Third", 2), ("Name/First", 2), ("Name/Third", 0), ("Name/First", 0)] := by
  have differs : steadyNames.DiffersAt failingNames 1 (nameRule "Name" "Second" .descending none)
      (nameRule "Name" "Second" .descending (some "a")) := {
    elsewhere := fun index different =>
      match index with
      | 0 => rfl
      | 1 => absurd rfl different
      | _ + 2 => rfl
    inLeft := rfl
    inRight := rfl
    id := rfl
    family := rfl }
  exact ⟨differs, onRules_run_of_differsAt differs {} nameFormula ⟨none, none⟩,
    by decide +kernel, by decide +kernel, by decide +kernel⟩

end Audit

end FormulaLint
