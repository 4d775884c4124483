import FormulaLint.Dictionary
import Mathlib.Data.List.Induction
import Mathlib.Data.List.Nodup

/-! Dictionaries made from pairs: the names stand in the order of their first appearance, and each
has the value that it was given last. -/

namespace FormulaLint

/-! ## Names without repetition -/

theorem eraseDups_concat (values : List String) (value : String) :
    (values ++ [value]).eraseDups = values.eraseDups ++ if value ∈ values then [] else [value] := by
  rw [List.eraseDups_append, List.cons_removeAll]
  by_cases known : value ∈ values <;> simp [known, List.eraseDups_cons]

theorem nodup_eraseDups (values : List String) : values.eraseDups.Nodup := by
  induction values using List.reverseRecOn with
  | nil => simp
  | append_singleton values value induction =>
      rw [eraseDups_concat]
      split
      · rwa [List.append_nil]
      · next fresh =>
          rw [List.nodup_append]
          refine ⟨induction, by simp, ?_⟩
          intro left leftMember right rightMember equal
          rw [List.mem_singleton] at rightMember
          exact fresh (List.mem_eraseDups.mp (rightMember ▸ equal ▸ leftMember))

theorem filter_eraseDups (keeps : String → Bool) (values : List String) :
    values.eraseDups.filter keeps = (values.filter keeps).eraseDups := by
  induction values using List.reverseRecOn with
  | nil => simp
  | append_singleton values value induction =>
      rw [eraseDups_concat, List.filter_append, List.filter_append, induction]
      by_cases kept : keeps value = true
      · rw [List.filter_cons_of_pos kept, List.filter_nil, eraseDups_concat]
        by_cases known : value ∈ values <;> simp [known, kept]
      · rw [List.filter_cons_of_neg kept, List.filter_nil, List.append_nil]
        by_cases known : value ∈ values <;> simp [known, kept]

theorem eraseDups_append_of_subset {values others : List String} (known : others ⊆ values) :
    (values ++ others).eraseDups = values.eraseDups := by
  induction others using List.reverseRecOn with
  | nil => rw [List.append_nil]
  | append_singleton others other induction =>
      have earlier : others ⊆ values := fun name member => known (List.mem_append_left _ member)
      have last : other ∈ values := known (List.mem_append_right _ (List.mem_singleton_self other))
      rw [← List.append_assoc, eraseDups_concat, if_pos (List.mem_append_left _ last),
        List.append_nil, induction earlier]

theorem eraseDups_eq_self {values : List String} (distinct : values.Nodup) :
    values.eraseDups = values := by
  induction values using List.reverseRecOn with
  | nil => simp
  | append_singleton values value induction =>
      rw [List.nodup_append] at distinct
      have fresh : value ∉ values := fun member =>
        distinct.2.2 value member value (List.mem_singleton_self value) rfl
      rw [eraseDups_concat, if_neg fresh, induction distinct.1]

/-! ## Names and values -/

namespace Dictionary

variable {α β : Type}

def names (dictionary : Dictionary α) : List String :=
  dictionary.map (·.1)

theorem names_cons (entry : String × α) (rest : Dictionary α) :
    names (entry :: rest) = entry.1 :: rest.names :=
  rfl

def last? (pairs : List (String × α)) (name : String) : Option α :=
  get? pairs.reverse name

theorem get?_append (front back : Dictionary α) (name : String) :
    get? (front ++ back) name = (get? front name).or (get? back name) := by
  rw [get?, List.find?_append, Option.map_or]
  rfl

theorem last?_append (front back : List (String × α)) (name : String) :
    last? (front ++ back) name = (last? back name).or (last? front name) := by
  rw [last?, List.reverse_append, get?_append]
  rfl

theorem get?_singleton (pair : String × α) (name : String) :
    get? [pair] name = if pair.1 = name then some pair.2 else none := by
  rw [get?, List.find?_singleton]
  by_cases same : pair.1 = name <;> simp [same]

theorem isSome_get?_iff {dictionary : Dictionary α} {name : String} :
    (get? dictionary name).isSome = true ↔ name ∈ dictionary.names := by
  rw [get?, Option.isSome_map, List.find?_isSome, names, List.mem_map]
  simp only [decide_eq_true_eq]

theorem get?_eq_none_iff {dictionary : Dictionary α} {name : String} :
    get? dictionary name = none ↔ name ∉ dictionary.names := by
  rw [← isSome_get?_iff, Bool.not_eq_true, Option.isSome_eq_false_iff, Option.isNone_iff_eq_none]

theorem isSome_last?_iff {pairs : List (String × α)} {name : String} :
    (last? pairs name).isSome = true ↔ name ∈ pairs.map (·.1) := by
  rw [last?, isSome_get?_iff, names, List.map_reverse, List.mem_reverse]

theorem get?_of_mem {dictionary : Dictionary α} (distinct : dictionary.names.Nodup)
    {entry : String × α} (member : entry ∈ dictionary) :
    get? dictionary entry.1 = some entry.2 := by
  cases found : dictionary.find? fun other => other.1 = entry.1 with
  | none =>
      have unnamed := List.find?_eq_none.mp found entry member
      simp at unnamed
  | some other =>
      have named := List.find?_some found
      have equal : other = entry := List.inj_on_of_nodup_map distinct
        (List.mem_of_find?_eq_some found) member (of_decide_eq_true named)
      rw [get?, found, equal, Option.map_some]

theorem mem_of_get? {dictionary : Dictionary α} {name : String} {value : α}
    (found : get? dictionary name = some value) : (name, value) ∈ dictionary := by
  rcases Option.map_eq_some_iff.mp found with ⟨entry, has, rfl⟩
  have named := List.find?_some has
  rw [← of_decide_eq_true named]
  exact List.mem_of_find?_eq_some has

theorem get?_map (change : String → α → β) (dictionary : Dictionary α) (name : String) :
    get? (dictionary.map fun entry => (entry.1, change entry.1 entry.2)) name =
      (get? dictionary name).map (change name) := by
  rw [get?, List.find?_map, get?, Option.map_map, Option.map_map, Function.comp_def]
  refine Option.map_congr fun entry found => ?_
  have named := List.find?_some found
  rw [of_decide_eq_true named]
  rfl

theorem names_map (change : String → α → β) (dictionary : Dictionary α) :
    names (dictionary.map fun entry => (entry.1, change entry.1 entry.2)) = dictionary.names :=
  List.map_map

theorem last?_cons (pair : String × α) (rest : List (String × α)) (name : String) :
    last? (pair :: rest) name =
      (last? rest name).or (if pair.1 = name then some pair.2 else none) := by
  rw [← List.singleton_append, last?_append, ← get?_singleton]
  rfl

theorem last?_eq_get? {dictionary : Dictionary α} (distinct : dictionary.names.Nodup)
    (name : String) : last? dictionary name = get? dictionary name := by
  cases found : get? dictionary name with
  | none =>
      rw [get?_eq_none_iff] at found
      rw [last?, get?_eq_none_iff, names, List.map_reverse, List.mem_reverse]
      exact found
  | some value =>
      have reversed : (names dictionary.reverse).Nodup := by
        rwa [names, List.map_reverse, List.nodup_reverse]
      exact get?_of_mem reversed (List.mem_reverse.mpr (mem_of_get? found))

theorem eq_of_get?_eq {left right : Dictionary α} (distinct : left.names.Nodup)
    (sameNames : left.names = right.names) (sameValues : ∀ name, left.get? name = right.get? name) :
    left = right := by
  have lookedUp (dictionary : Dictionary α) (nodup : dictionary.names.Nodup) :
      dictionary.map some =
        dictionary.names.map fun name => (dictionary.get? name).map fun value => (name, value) := by
    rw [names, List.map_map]
    apply List.map_congr_left
    intro entry member
    simp [get?_of_mem nodup member]
  have both := lookedUp left distinct
  rw [sameNames] at both
  simp only [sameValues] at both
  rw [← lookedUp right (sameNames ▸ distinct)] at both
  exact List.map_injective_iff.mpr (fun _ _ => Option.some.inj) both

/-! ## Putting pairs together -/

theorem names_put (name : String) (value : α) (dictionary : Dictionary α) :
    (put name value dictionary).names =
      if name ∈ dictionary.names then dictionary.names else dictionary.names ++ [name] := by
  induction dictionary with
  | nil => rfl
  | cons entry rest induction =>
      rw [put, names_cons]
      by_cases same : entry.1 = name
      · rw [if_pos same, if_pos (same ▸ List.mem_cons_self), names_cons, same]
      · have later : name ∈ entry.1 :: names rest ↔ name ∈ names rest := by
          simp [Ne.symm same]
        rw [if_neg same, names_cons, induction]
        simp only [later]
        split <;> rfl

theorem mem_put {key : String} {value : α} {entry : String × α} {dictionary : Dictionary α}
    (member : entry ∈ put key value dictionary) : entry = (key, value) ∨ entry ∈ dictionary := by
  induction dictionary with
  | nil => exact .inl (List.mem_singleton.mp member)
  | cons head rest induction =>
      rw [put] at member
      split at member
      · rcases List.mem_cons.mp member with first | later
        · exact .inl first
        · exact .inr (List.mem_cons_of_mem head later)
      · rcases List.mem_cons.mp member with first | later
        · exact .inr (first ▸ List.mem_cons_self)
        · rcases induction later with new | old
          · exact .inl new
          · exact .inr (List.mem_cons_of_mem head old)

theorem names_ofPairs (pairs : List (String × α)) :
    (ofPairs pairs).names = (pairs.map (·.1)).eraseDups := by
  induction pairs using List.reverseRecOn with
  | nil => simp [ofPairs, names]
  | append_singleton pairs pair induction =>
      rw [ofPairs] at induction ⊢
      rw [List.foldl_append, List.foldl_cons, List.foldl_nil, names_put, induction,
        List.map_append, List.map_singleton, eraseDups_concat]
      simp only [List.mem_eraseDups]
      split <;> simp

theorem get?_ofPairs (pairs : List (String × α)) (name : String) :
    (ofPairs pairs).get? name = last? pairs name := by
  induction pairs using List.reverseRecOn with
  | nil => rfl
  | append_singleton pairs pair induction =>
      rw [ofPairs] at induction ⊢
      rw [List.foldl_append, List.foldl_cons, List.foldl_nil, get?_put, induction, last?_append]
      have single : last? [pair] name = if pair.1 = name then some pair.2 else none :=
        get?_singleton pair name
      rw [single]
      split <;> rfl

theorem nodup_names_ofPairs (pairs : List (String × α)) : (ofPairs pairs).names.Nodup := by
  rw [names_ofPairs]
  exact nodup_eraseDups _

end Dictionary

end FormulaLint
