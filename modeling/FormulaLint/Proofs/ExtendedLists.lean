import FormulaLint.Proofs.LayeredRows

/-! What a list of names becomes when items are added to it. The items are compared with the names as
they are given, and turned into names only afterwards. -/

namespace FormulaLint

namespace Value

def isText : Value → Bool
  | .scalar single => single.isText
  | _ => false

variable {value : Value} {name : String}

theorem isText_iff : value.isText = true ↔ ∃ name, value = .text name := by
  cases value <;> simp [isText, Scalar.isText_iff]

theorem same_text_iff : value.same (.text name) = true ↔ value = .text name := by
  cases value <;> simp [same, Scalar.same_text_iff]

theorem text_same_iff : (Value.text name).same value = true ↔ value = .text name := by
  cases value <;> simp [same, Scalar.text_same_iff]

end Value

namespace Tables

/-! ## Extended lists -/

variable {items others additions : List Value} {names : List String}

theorem extendList_cons (items : List Value) (addition : Value) (rest : List Value) :
    extendList items (addition :: rest) =
      extendList (if items.any addition.same then items else items ++ [addition]) rest :=
  rfl

theorem prefix_extendList (items additions : List Value) :
    items <+: extendList items additions := by
  induction additions generalizing items with
  | nil => exact List.prefix_refl items
  | cons addition rest induction =>
      rw [extendList_cons]
      split
      · exact induction items
      · exact (List.prefix_append items [addition]).trans (induction _)

theorem mem_of_mem_extendList {item : Value} (member : item ∈ extendList items additions) :
    item ∈ items ∨ item ∈ additions := by
  induction additions generalizing items with
  | nil => exact .inl member
  | cons addition rest induction =>
      rw [extendList_cons] at member
      rcases induction member with before | later
      · split at before
        · exact .inl before
        · rcases List.mem_append.mp before with old | new
          · exact .inl old
          · exact .inr (List.mem_singleton.mp new ▸ List.mem_cons_self)
      · exact .inr (List.mem_cons_of_mem addition later)

theorem text_mem_extendList {name : String} (listed : .text name ∈ additions) :
    .text name ∈ extendList items additions := by
  induction additions generalizing items with
  | nil => cases listed
  | cons addition rest induction =>
      rw [extendList_cons]
      rcases List.mem_cons.mp listed with rfl | later
      · apply (prefix_extendList _ rest).subset
        split
        · next known =>
            rcases List.any_eq_true.mp known with ⟨item, member, same⟩
            exact Value.text_same_iff.mp same ▸ member
        · exact List.mem_append_right _ (List.mem_singleton_self _)
      · exact induction later

theorem extendList_eq_self_iff :
    extendList items additions = items ↔
      ∀ addition ∈ additions, items.any addition.same = true := by
  induction additions generalizing items with
  | nil => exact iff_of_true rfl nofun
  | cons addition rest induction =>
      rw [extendList_cons, List.forall_mem_cons]
      split
      · next known => rw [induction, known, eq_self, true_and]
      · next unknown =>
          refine iff_of_false ?_ fun all => unknown all.1
          intro unchanged
          have longer := (prefix_extendList (items ++ [addition]) rest).length_le
          rw [unchanged, List.length_append, List.length_singleton] at longer
          omega

def withoutTexts (items : List Value) : List Value :=
  items.filter fun item => !item.isText

private theorem any_same_withoutTexts {addition : Value} (noText : addition.isText = false) :
    (withoutTexts items).any addition.same = items.any addition.same := by
  rw [withoutTexts, List.any_filter]
  refine List.any_congr rfl fun item => ?_
  cases isText : item.isText with
  | false => rfl
  | true =>
      rcases Value.isText_iff.mp isText with ⟨name, rfl⟩
      cases same : addition.same (.text name) with
      | false => rfl
      | true =>
          rw [Value.same_text_iff.mp same] at noText
          cases noText

theorem withoutTexts_extendList (same : withoutTexts items = withoutTexts others) :
    withoutTexts (extendList items additions) = withoutTexts (extendList others additions) := by
  induction additions generalizing items others with
  | nil => exact same
  | cons addition rest induction =>
      rw [extendList_cons, extendList_cons]
      apply induction
      cases isText : addition.isText with
      | true =>
        have kept (values : List Value) :
            withoutTexts (if values.any addition.same then values else values ++ [addition]) =
              withoutTexts values := by
          split
          · rfl
          · simp [withoutTexts, List.filter_append, isText]
        rw [kept, kept, same]
      | false =>
        have alike : items.any addition.same = others.any addition.same := by
          rw [← any_same_withoutTexts isText, same, any_same_withoutTexts isText]
        rw [alike]
        split
        · exact same
        · rw [withoutTexts, withoutTexts, List.filter_append, List.filter_append]
          exact congrArg (· ++ _) same

/-! ## Extended names -/

def extended (names : List String) (additions : List Value) : List String :=
  (extendList (names.map Value.text) additions).map (·.display)

theorem map_display_text (names : List String) :
    (names.map Value.text).map (·.display) = names := by
  rw [List.map_map]
  exact List.map_id names

private theorem withoutTexts_map_text (names : List String) :
    withoutTexts (names.map Value.text) = [] := by
  rw [withoutTexts, List.filter_eq_nil_iff]
  intro item member
  rcases List.mem_map.mp member with ⟨name, -, rfl⟩
  exact Bool.false_ne_true

theorem mem_extended_iff {name : String} :
    name ∈ extended names additions ↔
      name ∈ names ∨ .text name ∈ additions ∨
        ∃ item ∈ withoutTexts (extendList [] additions), item.display = name := by
  rw [extended, List.mem_map, ← withoutTexts_extendList (withoutTexts_map_text names)]
  constructor
  · rintro ⟨item, member, rfl⟩
    cases isText : item.isText with
    | true =>
        rcases Value.isText_iff.mp isText with ⟨name, rfl⟩
        rcases mem_of_mem_extendList member with before | listed
        · rcases List.mem_map.mp before with ⟨other, known, same⟩
          cases same
          exact .inl known
        · exact .inr (.inl listed)
    | false =>
        exact .inr (.inr ⟨item, List.mem_filter.mpr ⟨member, by rw [isText]; rfl⟩, rfl⟩)
  · rintro (known | listed | ⟨item, member, shown⟩)
    · have before : Value.text name ∈ names.map Value.text := List.mem_map_of_mem known
      exact ⟨.text name, (prefix_extendList _ additions).subset before, rfl⟩
    · exact ⟨.text name, text_mem_extendList listed, rfl⟩
    · exact ⟨item, (List.mem_filter.mp member).1, shown⟩

/-- Names that are added twice are added once just if all of them are given as texts: anything else
is compared with the texts of the list and found in it never. -/
theorem extended_extended_iff :
    extended (extended names additions) additions = extended names additions ↔
      ∀ addition ∈ additions, addition.isText = true := by
  constructor
  · intro unchanged addition listed
    have sameLength := congrArg List.length unchanged
    rw [extended, List.length_map, ← List.length_map (f := Value.text)] at sameLength
    have known := extendList_eq_self_iff.mp
      ((prefix_extendList _ additions).eq_of_length sameLength.symm).symm addition listed
    rcases List.any_eq_true.mp known with ⟨item, member, same⟩
    rcases List.mem_map.mp member with ⟨name, -, rfl⟩
    rw [Value.same_text_iff.mp same]
    rfl
  · intro texts
    have written : (extended names additions).map Value.text =
        extendList (names.map Value.text) additions := by
      rw [extended, List.map_map]
      refine (List.map_congr_left (g := id) fun item member => ?_).trans (List.map_id _)
      have isText : item.isText = true := by
        rcases mem_of_mem_extendList member with before | listed
        · rcases List.mem_map.mp before with ⟨name, -, rfl⟩
          rfl
        · exact texts item listed
      rcases Value.isText_iff.mp isText with ⟨name, rfl⟩
      rfl
    have complete : ∀ addition ∈ additions,
        (extendList (names.map Value.text) additions).any addition.same = true := by
      intro addition listed
      rcases Value.isText_iff.mp (texts addition listed) with ⟨name, rfl⟩
      exact List.any_eq_true.mpr
        ⟨.text name, text_mem_extendList listed, Value.text_same_iff.mpr rfl⟩
    rw [extended, written, extendList_eq_self_iff.mpr complete, ← written, map_display_text]

end Tables

end FormulaLint
