import Mathlib.Data.List.Forall2

/-! Steps that can fail, taken one after another: all of them succeed or the whole fails. -/

namespace FormulaLint.Except

variable {α β fault : Type}

/-! ## Single steps -/

theorem exists_of_isOk {outcome : Except fault α} (succeeds : outcome.isOk = true) :
    ∃ value, outcome = .ok value := by
  cases outcome with
  | error fault => cases succeeds
  | ok value => exact ⟨value, rfl⟩

theorem toOption_eq_some_iff {outcome : Except fault α} {value : α} :
    outcome.toOption = some value ↔ outcome = .ok value := by
  cases outcome with
  | error fault => exact iff_of_false nofun nofun
  | ok made => simp [Except.toOption]

theorem exists_of_bind_eq_ok {first : Except fault α} {next : α → Except fault β} {result : β}
    (made : (first >>= next) = .ok result) :
    ∃ value, first = .ok value ∧ next value = .ok result := by
  cases first with
  | error fault => cases made
  | ok value => exact ⟨value, rfl, made⟩

theorem exists_of_map_eq_ok {make : α → β} {outcome : Except fault α} {result : β}
    (made : make <$> outcome = .ok result) :
    ∃ value, outcome = .ok value ∧ make value = result := by
  cases outcome with
  | error fault => cases made
  | ok value => exact ⟨value, rfl, Except.ok.inj made⟩

/-! ## One step for each value of a list -/

variable {make : α → Except fault β} {values : List α} {made : List β}

theorem mapM_eq_ok_iff :
    values.mapM make = .ok made ↔
      List.Forall₂ (fun value result => make value = .ok result) values made := by
  induction values generalizing made with
  | nil =>
      rw [List.mapM_nil, List.forall₂_nil_left_iff]
      exact ⟨fun same => (Except.ok.inj same).symm, fun same => same ▸ rfl⟩
  | cons head rest induction =>
      rw [List.mapM_cons, List.forall₂_cons_left_iff]
      constructor
      · intro maps
        rcases exists_of_bind_eq_ok maps with ⟨image, first, maps⟩
        rcases exists_of_bind_eq_ok maps with ⟨images, later, maps⟩
        cases maps
        exact ⟨image, images, first, induction.mp later, rfl⟩
      · rintro ⟨image, images, first, later, rfl⟩
        rw [first, induction.mpr later]
        rfl

theorem exists_of_mapM_eq_ok (maps : values.mapM make = .ok made) {value : α}
    (member : value ∈ values) : ∃ result, make value = .ok result := by
  have related := mapM_eq_ok_iff.mp maps
  clear maps
  induction related with
  | nil => cases member
  | cons first _ induction =>
      rcases List.mem_cons.mp member with rfl | later
      · exact ⟨_, first⟩
      · exact induction later

theorem mem_iff_of_mapM_eq_ok (maps : values.mapM make = .ok made) {result : β} :
    result ∈ made ↔ ∃ value ∈ values, make value = .ok result := by
  have related := mapM_eq_ok_iff.mp maps
  clear maps
  induction related with
  | nil => simp
  | cons first _ induction =>
      rw [List.mem_cons, List.exists_mem_cons_iff, first, Except.ok.injEq, eq_comm]
      exact or_congr_right induction

theorem exists_mapM_eq_ok (each : ∀ value ∈ values, ∃ result, make value = .ok result) :
    ∃ made, values.mapM make = .ok made := by
  induction values with
  | nil => exact ⟨[], rfl⟩
  | cons head rest induction =>
      rcases List.forall_mem_cons.mp each with ⟨⟨image, first⟩, later⟩
      rcases induction later with ⟨images, maps⟩
      exact ⟨image :: images, by rw [List.mapM_cons, first, maps]; rfl⟩

/-! ## One step after another -/

variable {step : β → α → Except fault β} {start : β}

/-- A run fails just if its steps succeed up to one that fails. -/
theorem foldlM_eq_error_iff {cause : fault} :
    values.foldlM step start = .error cause ↔
      ∃ front value rest reached, values = front ++ value :: rest ∧
        front.foldlM step start = .ok reached ∧ step reached value = .error cause := by
  constructor
  · intro stops
    induction values generalizing start with
    | nil => cases stops
    | cons head later induction =>
        rw [List.foldlM_cons] at stops
        cases first : step start head with
        | error failed =>
            rw [first] at stops
            exact ⟨[], head, later, start, rfl, rfl, first.trans stops⟩
        | ok next =>
            rw [first] at stops
            rcases induction stops with ⟨front, value, rest, reached, rfl, succeeds, fails⟩
            refine ⟨head :: front, value, rest, reached, rfl, ?_, fails⟩
            rw [List.foldlM_cons, first]
            exact succeeds
  · rintro ⟨front, value, rest, reached, rfl, succeeds, fails⟩
    rw [List.foldlM_append, succeeds]
    change (value :: rest).foldlM step reached = .error cause
    rw [List.foldlM_cons, fails]
    rfl

theorem holds_of_foldlM_eq_ok (holds : β → Prop) {result : β}
    (ran : values.foldlM step start = .ok result) (first : holds start)
    (each : ∀ value ∈ values, ∀ reached next, holds reached → step reached value = .ok next →
      holds next) :
    holds result := by
  induction values generalizing start with
  | nil =>
      cases ran
      exact first
  | cons head later induction =>
      rcases List.forall_mem_cons.mp each with ⟨here, there⟩
      rw [List.foldlM_cons] at ran
      rcases exists_of_bind_eq_ok ran with ⟨next, stepped, ran⟩
      exact induction ran (here start next first stepped) there

/-! ## Causes of failure -/

def FailsOnly (condition : fault → Prop) (outcome : Except fault α) : Prop :=
  ∀ cause, outcome = .error cause → condition cause

variable {condition : fault → Prop} {outcome : Except fault α}

theorem failsOnly_ok (value : α) : FailsOnly condition (.ok value : Except fault α) := nofun

theorem failsOnly_error {cause : fault} (holds : condition cause) :
    FailsOnly condition (.error cause : Except fault α) := by
  intro other same
  cases same
  exact holds

theorem FailsOnly.bind {next : α → Except fault β} (first : FailsOnly condition outcome)
    (later : ∀ value, FailsOnly condition (next value)) :
    FailsOnly condition (outcome >>= next) := by
  cases outcome with
  | error cause => exact failsOnly_error (first cause rfl)
  | ok value => exact later value

theorem FailsOnly.map {make : α → β} (first : FailsOnly condition outcome) :
    FailsOnly condition (make <$> outcome) := by
  cases outcome with
  | error cause => exact failsOnly_error (first cause rfl)
  | ok value => exact failsOnly_ok (make value)

theorem FailsOnly.mapM {make : α → Except fault β}
    (each : ∀ value ∈ values, FailsOnly condition (make value)) :
    FailsOnly condition (values.mapM make) := by
  induction values with
  | nil => exact failsOnly_ok []
  | cons head rest induction =>
      rcases List.forall_mem_cons.mp each with ⟨first, later⟩
      rw [List.mapM_cons]
      exact first.bind fun image => (induction later).bind fun images => failsOnly_ok _

end FormulaLint.Except
