import FormulaLint.Configuration.Layers
import FormulaLint.Proofs.Outcomes

/-! Documents that are layered. Whatever stands at a path is read and put on top of what was there
before; a document without entries changes nothing. Loading does so path by path, from the packaged
configuration on. -/

namespace FormulaLint

namespace Policy

theorem merge_empty (policy : Policy) : policy.merge {} = policy := by
  simp [merge]

theorem ofDocument_nil : ofDocument [] = .ok {} := rfl

end Policy

namespace Configuration

variable {languages : Languages} {disk : Disk} {path : Path} {paths : List Path}
  {base configuration : Configuration} {document : Entries}

/-! ## One layer -/

theorem layer_nil (configuration : Configuration) : configuration.layer [] = .ok configuration := by
  rw [layer]
  change (do
    let policy ← Policy.ofDocument []
    return ⟨configuration.tables, configuration.policy.merge policy⟩) = Except.ok configuration
  rw [Policy.ofDocument_nil]
  change Except.ok (⟨configuration.tables, configuration.policy.merge {}⟩ : Configuration) = _
  rw [Policy.merge_empty]

theorem policy_of_layer (layers : base.layer document = .ok configuration) :
    ∃ policy, Policy.ofDocument document = .ok policy ∧
      configuration.policy = base.policy.merge policy := by
  unfold layer at layers
  dsimp only at layers
  split at layers
  all_goals
    rcases Except.exists_of_bind_eq_ok layers with ⟨tables, -, layers⟩
    rcases Except.exists_of_bind_eq_ok layers with ⟨policy, reads, layers⟩
    cases layers
    exact ⟨policy, reads, rfl⟩

theorem tables_of_layer (layers : base.layer document = .ok configuration) :
    configuration.tables = base.tables ∨
      base.tables.merge (document.filter fun entry => !isPolicyKey entry.1) =
        .ok configuration.tables := by
  unfold layer at layers
  dsimp only at layers
  split at layers
  all_goals
    rcases Except.exists_of_bind_eq_ok layers with ⟨tables, made, layers⟩
    rcases Except.exists_of_bind_eq_ok layers with ⟨policy, -, layers⟩
    cases layers
  · cases made
    exact .inl rfl
  · exact .inr made

def withDocument (languages : Languages) (disk : Disk) (base : Configuration) (path : Path) :
    Except Failure Configuration := do
  let document ← readDocument languages disk path
  (base.layer document).mapError .configuration

theorem fst_addLayer (base : Configuration) :
    (base.addLayer languages disk path).1 = base.withDocument languages disk path := by
  rw [addLayer, withDocument]
  cases readDocument languages disk path with
  | error failure => rfl
  | ok document =>
      cases document with
      | nil =>
          change _ = (base.layer []).mapError .configuration
          rw [layer_nil]
          rfl
      | cons entry rest => rfl

theorem exists_layer_of_withDocument
    (made : base.withDocument languages disk path = .ok configuration) :
    ∃ document, readDocument languages disk path = .ok document ∧
      base.layer document = .ok configuration := by
  rcases Except.exists_of_bind_eq_ok made with ⟨document, reads, layers⟩
  cases layered : base.layer document with
  | error fault =>
      rw [layered] at layers
      cases layers
  | ok next =>
      rw [layered] at layers
      cases layers
      exact ⟨document, reads, layered⟩

/-! ## All layers -/

theorem fst_addLayers (base : Configuration) :
    (base.addLayers languages disk paths).1 =
      paths.foldlM (withDocument languages disk) base := by
  induction paths generalizing base with
  | nil => rfl
  | cons path rest induction =>
      rw [addLayers, List.foldlM_cons, ← fst_addLayer]
      rcases base.addLayer languages disk path with ⟨outcome, noticed⟩
      cases outcome with
      | error failure => rfl
      | ok layered => exact induction layered

theorem exists_packaged : ∃ configuration, packaged = .ok configuration := by
  have tablesRead : (Tables.ofDocument Packaged.tables).isOk = true := by decide +kernel
  have policyRead : (Policy.ofDocument Packaged.policy).isOk = true := by decide +kernel
  rcases Except.exists_of_isOk tablesRead with ⟨tables, tablesEq⟩
  rcases Except.exists_of_isOk policyRead with ⟨policy, policyEq⟩
  refine ⟨⟨tables, policy⟩, ?_⟩
  simp only [packaged, tablesEq, policyEq]
  rfl

theorem load_eq (starts : packaged = .ok base) :
    load languages disk paths = base.addLayers languages disk paths := by
  delta load
  rw [starts]

theorem fst_load (starts : packaged = .ok base) :
    (load languages disk paths).1 = paths.foldlM (withDocument languages disk) base := by
  rw [load_eq starts, fst_addLayers]

end Configuration

end FormulaLint
