import FormulaLint.Proofs.PhraseTables

/-! What a mapping becomes under a layer: its rows stay in their places, each with the value that it
is given on top, and new rows follow. -/

namespace FormulaLint

/-! ## Keys -/

namespace Scalar

def isText : Scalar → Bool
  | .text _ => true
  | _ => false

theorem isText_iff {scalar : Scalar} : scalar.isText = true ↔ ∃ name, scalar = .text name := by
  cases scalar <;> simp [isText]

/-- What stands for a scalar when it is compared. -/
def compared (scalar : Scalar) : Scalar :=
  match scalar.tenths? with
  | some tenths => .decimal tenths
  | none => scalar

theorem same_iff {left right : Scalar} :
    left.same right = true ↔ left.compared = right.compared := by
  cases left <;> cases right <;> simp [same, compared, tenths?]

theorem same_refl (scalar : Scalar) : scalar.same scalar = true :=
  same_iff.mpr rfl

theorem same_comm (left right : Scalar) : left.same right = right.same left := by
  rw [Bool.eq_iff_iff, same_iff, same_iff, eq_comm]

theorem same_congr {left right : Scalar} (alike : left.same right = true) (other : Scalar) :
    left.same other = right.same other := by
  rw [Bool.eq_iff_iff, same_iff, same_iff, same_iff.mp alike]

end Scalar

/-! ## Rows -/

namespace Entries

def Distinct (entries : Entries) : Prop :=
  entries.Pairwise fun earlier later => earlier.1.same later.1 = false

def has (entries : Entries) (key : Scalar) : Bool :=
  entries.any fun entry => entry.1.same key

def value? (entries : Entries) (key : Scalar) : Option Value :=
  (entries.find? fun entry => entry.1.same key).map (·.2)

variable {entries additions : Entries} {key : Scalar} {value : Value}

theorem isSome_value?_iff : (entries.value? key).isSome = true ↔ entries.has key = true := by
  rw [value?, Option.isSome_map, has, List.find?_isSome, List.any_eq_true]

theorem value?_cons (entry : Scalar × Value) :
    value? (entry :: entries) key = if entry.1.same key then some entry.2 else entries.value? key := by
  rw [value?, List.find?_cons]
  cases entry.1.same key <;> rfl

theorem value?_eq_none_iff : entries.value? key = none ↔ entries.has key = false := by
  rw [← Option.isNone_iff_eq_none, ← Option.isSome_eq_false_iff, Bool.eq_false_iff, ne_eq,
    isSome_value?_iff, Bool.eq_false_iff]

theorem has_cons (entry : Scalar × Value) :
    has (entry :: entries) key = (entry.1.same key || entries.has key) :=
  List.any_cons

theorem has_congr {other : Scalar} (alike : key.same other = true) :
    entries.has key = entries.has other := by
  simp only [has, Scalar.same_comm _ key, Scalar.same_comm _ other, Scalar.same_congr alike]

theorem value?_congr {other : Scalar} (alike : key.same other = true) :
    entries.value? key = entries.value? other := by
  simp only [value?, Scalar.same_comm _ key, Scalar.same_comm _ other, Scalar.same_congr alike]

theorem has_eq_false_iff :
    entries.has key = false ↔ ∀ entry ∈ entries, entry.1.same key = false := by
  simp only [has, List.any_eq_false, Bool.not_eq_true]

theorem distinct_cons {entry : Scalar × Value} :
    Distinct (entry :: entries) ↔ entries.has entry.1 = false ∧ entries.Distinct := by
  rw [Distinct, List.pairwise_cons, has_eq_false_iff]
  simp only [Scalar.same_comm entry.1]
  rfl

private theorem put_of_new (new : entries.has key = false) :
    put key value entries = entries ++ [(key, value)] := by
  induction entries with
  | nil => rfl
  | cons entry rest induction =>
      rw [has_cons, Bool.or_eq_false_iff] at new
      rw [put, if_neg (Bool.eq_false_iff.mp new.1), induction new.2, List.cons_append]

theorem put_of_has (distinct : entries.Distinct) (known : entries.has key = true) :
    put key value entries =
      entries.map fun entry => if entry.1.same key then (entry.1, value) else entry := by
  induction entries with
  | nil => cases known
  | cons entry rest induction =>
      rcases distinct_cons.mp distinct with ⟨apart, later⟩
      rw [put, List.map_cons]
      by_cases same : entry.1.same key = true
      · rw [has_congr same, has_eq_false_iff] at apart
        have kept : rest.map (fun entry => if entry.1.same key then (entry.1, value) else entry) =
            rest.map id := by
          apply List.map_congr_left
          intro other member
          rw [apart other member]
          rfl
        rw [if_pos same, if_pos same, kept, List.map_id]
      · rw [has_cons, Bool.eq_false_iff.mpr same, Bool.false_or] at known
        rw [if_neg same, if_neg same, induction later known]

theorem has_put (other : Scalar) :
    (put key value entries).has other = (entries.has other || key.same other) := by
  induction entries with
  | nil => rw [put, has_cons, Bool.or_comm]
  | cons entry rest induction =>
      rw [put, has_cons]
      split
      · next same =>
          rw [has_cons, Scalar.same_congr same, Bool.or_right_comm, Bool.or_self]
      · rw [has_cons, induction, Bool.or_assoc]

private theorem distinct_put (distinct : entries.Distinct) : (put key value entries).Distinct := by
  induction entries with
  | nil => exact List.pairwise_singleton _ _
  | cons entry rest induction =>
      rcases distinct_cons.mp distinct with ⟨apart, later⟩
      rw [put]
      split
      · exact distinct_cons.mpr ⟨apart, later⟩
      · next different =>
          refine distinct_cons.mpr ⟨?_, induction later⟩
          rw [has_put, apart, Scalar.same_comm, Bool.eq_false_iff.mpr different, Bool.or_self]

/-! ## Updated mappings -/

theorem value?_of_mem {entry : Scalar × Value} (distinct : entries.Distinct)
    (member : entry ∈ entries) : entries.value? entry.1 = some entry.2 := by
  induction entries with
  | nil => cases member
  | cons head rest induction =>
      rcases distinct_cons.mp distinct with ⟨apart, later⟩
      rw [value?_cons]
      rcases List.mem_cons.mp member with rfl | inRest
      · rw [if_pos (Scalar.same_refl _)]
      · rw [Scalar.same_comm, has_eq_false_iff.mp apart entry inRest]
        exact induction later inRest

/-- A row with the value that it is given on top. -/
def overlaid (additions : Entries) (entry : Scalar × Value) : Scalar × Value :=
  (entry.1, (additions.value? entry.1).getD entry.2)

theorem overlaid_nil : overlaid [] = id :=
  rfl

theorem overlaid_cons (addition entry : Scalar × Value) :
    overlaid (addition :: additions) entry =
      if addition.1.same entry.1 then (entry.1, addition.2) else overlaid additions entry := by
  rw [overlaid, value?_cons]
  split <;> rfl

private theorem overlaid_of_new {entry : Scalar × Value} (new : additions.has entry.1 = false) :
    overlaid additions entry = entry := by
  rw [overlaid, value?_eq_none_iff.mpr new]
  rfl

/-- The rows of an updated mapping: the old ones in their places, then the new ones in theirs. -/
theorem putAll_eq (distinct : entries.Distinct) (fresh : additions.Distinct) :
    putAll entries additions =
      entries.map additions.overlaid ++ additions.filter fun row => !entries.has row.1 := by
  induction additions generalizing entries with
  | nil =>
      rw [overlaid_nil, List.map_id, List.filter_nil, List.append_nil]
      rfl
  | cons addition rest induction =>
      rcases distinct_cons.mp fresh with ⟨apart, later⟩
      have unseen : (rest.filter fun row => !(put addition.1 addition.2 entries).has row.1) =
          rest.filter fun row => !entries.has row.1 := by
        apply List.filter_congr
        intro row member
        rw [has_put, Scalar.same_comm, has_eq_false_iff.mp apart row member, Bool.or_false]
      have step : putAll entries (addition :: rest) =
          putAll (put addition.1 addition.2 entries) rest := rfl
      rw [step, induction (distinct_put distinct) later, unseen]
      by_cases known : entries.has addition.1 = true
      · rw [put_of_has distinct known, List.map_map, List.filter_cons_of_neg (by simp [known])]
        refine congrArg (· ++ _) (List.map_congr_left fun entry _ => ?_)
        rw [overlaid_cons, Function.comp_apply, Scalar.same_comm addition.1]
        split
        · next same => exact overlaid_of_new ((has_congr same).trans apart)
        · rfl
      · have new : entries.has addition.1 = false := Bool.eq_false_iff.mpr known
        rw [put_of_new new, List.map_append, List.map_singleton, overlaid_of_new apart,
          List.filter_cons_of_pos (by simp [new]), List.append_assoc, List.singleton_append]
        refine congrArg (· ++ _) (List.map_congr_left fun entry member => ?_)
        rw [overlaid_cons, Scalar.same_comm, has_eq_false_iff.mp new entry member]
        rfl

theorem exists_mem_putAll {addition : Scalar × Value} (distinct : entries.Distinct)
    (fresh : additions.Distinct) (given : addition ∈ additions) :
    ∃ row ∈ putAll entries additions, row.2 = addition.2 := by
  rw [putAll_eq distinct fresh]
  by_cases known : entries.has addition.1 = true
  · rcases List.any_eq_true.mp known with ⟨entry, member, same⟩
    refine ⟨additions.overlaid entry, List.mem_append_left _ (List.mem_map_of_mem member), ?_⟩
    rw [overlaid, value?_congr same, value?_of_mem fresh given]
    rfl
  · exact ⟨addition, List.mem_append_right _ (List.mem_filter.mpr ⟨given, by simp [known]⟩), rfl⟩

end Entries

/-! ## Layered documents -/

namespace Entries

variable {entries : Entries} {key : Scalar} {value : Value}

theorem value?_put (other : Scalar) :
    (put key value entries).value? other =
      if key.same other then some value else entries.value? other := by
  induction entries with
  | nil => rw [put, value?_cons]
  | cons entry rest induction =>
      rw [put]
      split
      · next same =>
          rw [value?_cons, value?_cons, Scalar.same_congr same]
          split <;> rfl
      · next different =>
          rw [value?_cons, value?_cons, induction]
          by_cases same : entry.1.same other = true
          · have apart : key.same other = false := by
              rw [Scalar.same_comm, ← Scalar.same_congr same]
              exact Bool.eq_false_iff.mpr different
            rw [if_pos same, if_pos same, apart]
            rfl
          · rw [if_neg same, if_neg same]

end Entries

namespace Tables

variable {base additions : Entries}

theorem value?_layerEntries_of_new {key : Scalar} (new : additions.has key = false) :
    (layerEntries base additions).value? key = base.value? key := by
  induction additions generalizing base with
  | nil => rfl
  | cons addition rest induction =>
      rw [Entries.has_cons, Bool.or_eq_false_iff] at new
      have step : layerEntries base (addition :: rest) =
          layerEntries (Entries.put addition.1
            (layerValue (base.value? addition.1) addition.2) base) rest := rfl
      rw [step, induction new.2, Entries.value?_put, if_neg (Bool.eq_false_iff.mp new.1)]

/-- A layer acts on each key for itself. -/
theorem value?_layerEntries (distinct : additions.Distinct) (key : Scalar) :
    (layerEntries base additions).value? key =
      match additions.value? key with
      | some value => some (layerValue (base.value? key) value)
      | none => base.value? key := by
  induction additions generalizing base with
  | nil => rfl
  | cons addition rest induction =>
      rcases Entries.distinct_cons.mp distinct with ⟨apart, later⟩
      have step : layerEntries base (addition :: rest) =
          layerEntries (Entries.put addition.1
            (layerValue (base.value? addition.1) addition.2) base) rest := rfl
      rw [step, induction later, Entries.value?_put, Entries.value?_cons]
      by_cases same : addition.1.same key = true
      · rw [Entries.has_congr same] at apart
        rw [Entries.value?_eq_none_iff.mpr apart, if_pos same, if_pos same,
          Entries.value?_congr same]
      · rw [if_neg same, if_neg same]

end Tables

end FormulaLint
