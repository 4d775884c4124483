import FormulaLint.Proofs.LayeredRows
import FormulaLint.Proofs.TableRoundTrip

/-! Mappings that are updated and read again. In a table all names are texts; in what it is updated
with, keys are scalars of any kind, and only afterwards they become names. -/

namespace FormulaLint

namespace Tables

/-! ## Rows under their names -/

theorem distinct_textKeys {α : Type} (write : α → Value) {dictionary : Dictionary α}
    (distinct : dictionary.names.Nodup) :
    Entries.Distinct (dictionary.map fun entry => (.text entry.1, write entry.2)) := by
  rw [Entries.Distinct, List.pairwise_map]
  refine (List.pairwise_map.mp distinct).imp fun different => ?_
  rw [Bool.eq_false_iff]
  intro same
  exact different (Scalar.text.inj (Scalar.same_text_iff.mp same))

section

variable {rows : Entries} {name : String}

def withoutTextKeys (rows : Entries) : Entries :=
  rows.filter fun row => !row.1.isText

theorem last?_namedRows_cons (row : Scalar × Value) (rest : Entries) :
    Dictionary.last? (namedRows (row :: rest)) name =
      (Dictionary.last? (namedRows rest) name).or
        (if row.1.display = name then some row.2 else none) :=
  Dictionary.last?_cons _ _ _

theorem exists_row_of_last? {value : Value}
    (given : Dictionary.last? (namedRows rows) name = some value) :
    ∃ row ∈ rows, row.1.display = name ∧ row.2 = value := by
  have member := List.mem_reverse.mp (Dictionary.mem_of_get? given)
  rcases List.mem_map.mp member with ⟨row, listed, same⟩
  exact ⟨row, listed, congrArg Prod.fst same, congrArg Prod.snd same⟩

theorem isSome_last? {row : Scalar × Value} (listed : row ∈ rows) :
    (Dictionary.last? (namedRows rows) row.1.display).isSome = true := by
  rw [Dictionary.isSome_last?_iff, namedRows, List.map_map]
  exact List.mem_map_of_mem listed

theorem last?_filter_congr {keeps others : Scalar × Value → Bool}
    (same : ∀ row ∈ rows, row.1.display = name → keeps row = others row) :
    Dictionary.last? (namedRows (rows.filter keeps)) name =
      Dictionary.last? (namedRows (rows.filter others)) name := by
  induction rows with
  | nil => rfl
  | cons row rest induction =>
      rcases List.forall_mem_cons.mp same with ⟨first, later⟩
      rw [List.filter_cons, List.filter_cons]
      by_cases named : row.1.display = name
      · rw [first named]
        split
        · rw [last?_namedRows_cons, last?_namedRows_cons, induction later]
        · exact induction later
      · have skipped (keeps : Scalar × Value → Bool) :
            Dictionary.last? (namedRows (if keeps row then row :: rest.filter keeps else
              rest.filter keeps)) name = Dictionary.last? (namedRows (rest.filter keeps)) name := by
          split
          · rw [last?_namedRows_cons, if_neg named, Option.or_none]
          · rfl
        rw [skipped, skipped, induction later]

theorem last?_eq_get? (fresh : rows.Distinct)
    (noOther : Dictionary.last? (namedRows (withoutTextKeys rows)) name = none) :
    Dictionary.last? (namedRows rows) name = rows.get? name := by
  cases given : Dictionary.last? (namedRows rows) name with
  | none =>
      refine (Entries.value?_eq_none_iff.mpr (Entries.has_eq_false_iff.mpr ?_)).symm
      intro row listed
      rw [Bool.eq_false_iff]
      intro same
      have known := isSome_last? listed
      rw [Scalar.same_text_iff.mp same] at known
      exact absurd given (Option.isSome_iff_ne_none.mp known)
  | some value =>
      rcases exists_row_of_last? given with ⟨row, listed, named, rfl⟩
      have key : row.1 = .text name := by
        cases isText : row.1.isText with
        | true =>
            rcases Scalar.isText_iff.mp isText with ⟨other, key⟩
            rw [key] at named ⊢
            exact congrArg Scalar.text named
        | false =>
            have other : row ∈ withoutTextKeys rows :=
              List.mem_filter.mpr ⟨listed, by rw [isText]; rfl⟩
            have known := isSome_last? other
            rw [named, noOther] at known
            cases known
      have found := Entries.value?_of_mem fresh listed
      rw [key] at found
      exact found.symm

end

/-! ## Updated tables -/

namespace MappingTable

variable {table : MappingTable} {dictionary updated : Dictionary table.Row} {rows : Entries}
variable {name : String}

theorem has_written {key : Scalar} :
    (table.written dictionary).has key = true ↔ ∃ name ∈ dictionary.names, key = .text name := by
  rw [Entries.has, List.any_eq_true]
  constructor
  · rintro ⟨row, member, same⟩
    rcases List.mem_map.mp member with ⟨entry, inTable, rfl⟩
    exact ⟨entry.1, List.mem_map_of_mem inTable, Scalar.text_same_iff.mp same⟩
  · rintro ⟨name, known, rfl⟩
    rcases List.mem_map.mp known with ⟨entry, inTable, rfl⟩
    exact ⟨_, List.mem_map_of_mem inTable, Scalar.same_refl _⟩

theorem distinct_written (distinct : dictionary.names.Nodup) :
    (table.written dictionary).Distinct :=
  distinct_textKeys table.write distinct

theorem last?_overlaid (distinct : dictionary.names.Nodup) (name : String) :
    Dictionary.last? (namedRows ((table.written dictionary).map rows.overlaid)) name =
      (dictionary.get? name).map fun row => (rows.get? name).getD (table.write row) := by
  have overlaid : namedRows ((table.written dictionary).map rows.overlaid) =
      dictionary.map fun entry => (entry.1, (rows.get? entry.1).getD (table.write entry.2)) := by
    rw [namedRows, written, List.map_map, List.map_map]
    rfl
  rw [overlaid, Dictionary.last?_eq_get?,
    Dictionary.get?_map fun name row => (rows.get? name).getD (table.write row)]
  rw [Dictionary.names_map fun name row => (rows.get? name).getD (table.write row)]
  exact distinct

theorem last?_new_of_mem (known : name ∈ dictionary.names) :
    Dictionary.last?
        (namedRows (rows.filter fun row => !(table.written dictionary).has row.1)) name =
      Dictionary.last? (namedRows (withoutTextKeys rows)) name := by
  apply last?_filter_congr
  intro row _ named
  congr 1
  rw [Bool.eq_iff_iff, has_written, Scalar.isText_iff]
  constructor
  · rintro ⟨other, -, key⟩
    exact ⟨other, key⟩
  · rintro ⟨other, key⟩
    have same : other = name := by rwa [key] at named
    exact ⟨other, same ▸ known, key⟩

private theorem last?_new_of_not_mem (unknown : name ∉ dictionary.names) :
    Dictionary.last?
        (namedRows (rows.filter fun row => !(table.written dictionary).has row.1)) name =
      Dictionary.last? (namedRows rows) name := by
  have everything : Dictionary.last? (namedRows (rows.filter fun _ => true)) name =
      Dictionary.last? (namedRows rows) name := by rw [List.filter_true]
  rw [← everything]
  apply last?_filter_congr
  intro row _ named
  rw [Bool.not_eq_true', Bool.eq_false_iff, ne_eq, has_written]
  rintro ⟨other, inTable, key⟩
  have same : other = name := by rwa [key] at named
  exact unknown (same ▸ inTable)

/-- What stands under a name after an update. For a name of the table, keys that are no texts come
last: they are put behind the rows of the table. -/
theorem last?_putAll (distinct : dictionary.names.Nodup) (fresh : rows.Distinct) (name : String) :
    Dictionary.last? (namedRows (Entries.putAll (table.written dictionary) rows)) name =
      if name ∈ dictionary.names then
        (Dictionary.last? (namedRows (withoutTextKeys rows)) name).or
          ((rows.get? name).or ((dictionary.get? name).map table.write))
      else Dictionary.last? (namedRows rows) name := by
  rw [Entries.putAll_eq (distinct_written distinct) fresh, namedRows, List.map_append,
    Dictionary.last?_append]
  split
  · next known =>
      refine (congrArg₂ Option.or (last?_new_of_mem known) (last?_overlaid distinct name)).trans ?_
      rcases Option.isSome_iff_exists.mp (Dictionary.isSome_get?_iff.mpr known) with ⟨row, found⟩
      rw [found]
      cases rows.get? name <;> rfl
  · next unknown =>
      refine (congrArg₂ Option.or (last?_new_of_not_mem unknown)
        (last?_overlaid distinct name)).trans ?_
      rw [Dictionary.get?_eq_none_iff.mpr unknown, Option.map_none, Option.or_none]

theorem names_putAll (distinct : dictionary.names.Nodup) (fresh : rows.Distinct) :
    (namedRows (Entries.putAll (table.written dictionary) rows)).map (·.1) =
      dictionary.names ++
        (rows.filter fun row => !(table.written dictionary).has row.1).map (·.1.display) := by
  rw [Entries.putAll_eq (distinct_written distinct) fresh, namedRows, List.map_map,
    List.map_append, written, List.map_map, List.map_map]
  rfl

theorem mem_names_iff (distinct : dictionary.names.Nodup) (fresh : rows.Distinct)
    (settles : table.Settles (Entries.putAll (table.written dictionary) rows) updated) :
    name ∈ updated.names ↔
      name ∈ dictionary.names ∨ (Dictionary.last? (namedRows rows) name).isSome = true := by
  rw [settles.names, List.mem_eraseDups, ← Dictionary.isSome_last?_iff,
    last?_putAll distinct fresh]
  split
  · next known =>
      have given := Dictionary.isSome_get?_iff.mpr known
      simp [known, given]
  · next unknown => simp [unknown]

/-! ## Mappings that are updated twice -/

/-- Where keys of which some are texts and others are not come to one new name, the value given last
is read as the one given last under a key that is no text. -/
def Consistent (table : MappingTable) (rows : Entries) (dictionary : Dictionary table.Row) : Prop :=
  ∀ name ∉ dictionary.names, ∀ last other,
    Dictionary.last? (namedRows rows) name = some last →
      Dictionary.last? (namedRows (withoutTextKeys rows)) name = some other →
        table.settle last = table.settle other

section

variable (canonical : table.Canonical dictionary) (fresh : rows.Distinct)
variable (first : table.Settles (Entries.putAll (table.written dictionary) rows) updated)
include canonical fresh first

private theorem readable_again :
    ∀ row ∈ Entries.putAll (table.written updated) rows, (table.reads row.2).isSome = true := by
  intro row member
  rcases Entries.value_of_mem_putAll member with ⟨addition, given, equal⟩ | before
  · rcases Entries.exists_mem_putAll (distinct_written canonical.distinct) fresh given with
      ⟨earlier, listed, same⟩
    rw [equal, ← same]
    exact first.readable earlier listed
  · exact first.canonical.settles.readable row before

private theorem names_again :
    updated.names =
      ((namedRows (Entries.putAll (table.written updated) rows)).map (·.1)).eraseDups := by
  have distinct := first.canonical.distinct
  have noneNew :
      ((rows.filter fun row => !(table.written updated).has row.1).map (·.1.display)) ⊆
        updated.names := by
    intro name member
    rcases List.mem_map.mp member with ⟨row, listed, rfl⟩
    exact (mem_names_iff canonical.distinct fresh first).mpr
      (.inr (isSome_last? (List.mem_filter.mp listed).1))
  rw [names_putAll distinct fresh, eraseDups_append_of_subset noneNew, eraseDups_eq_self distinct]

private theorem settled_again_of_mem (known : name ∈ dictionary.names) :
    updated.get? name =
      (Dictionary.last? (namedRows (Entries.putAll (table.written updated) rows)) name).bind
        table.settle := by
  have still : name ∈ updated.names :=
    (mem_names_iff canonical.distinct fresh first).mpr (.inl known)
  have before := first.settled name
  rw [last?_putAll canonical.distinct fresh, if_pos known] at before
  rw [last?_putAll first.canonical.distinct fresh, if_pos still]
  cases other : Dictionary.last? (namedRows (withoutTextKeys rows)) name with
  | some value => rw [before, other, Option.some_or, Option.some_or]
  | none =>
      cases given : rows.get? name with
      | some value => rw [before, other, given, Option.some_or, Option.some_or]
      | none =>
          rw [Option.none_or, Option.none_or]
          exact (first.canonical.settle_get? name).symm

theorem settled_again_iff (new : name ∉ dictionary.names) :
    updated.get? name =
        (Dictionary.last? (namedRows (Entries.putAll (table.written updated) rows)) name).bind
          table.settle ↔
      ∀ last other, Dictionary.last? (namedRows rows) name = some last →
        Dictionary.last? (namedRows (withoutTextKeys rows)) name = some other →
          table.settle last = table.settle other := by
  have before := first.settled name
  have named : name ∈ updated.names ↔ _ := mem_names_iff canonical.distinct fresh first
  rw [last?_putAll canonical.distinct fresh, if_neg new] at before
  rw [last?_putAll first.canonical.distinct fresh]
  cases last : Dictionary.last? (namedRows rows) name with
  | none =>
      have absent : name ∉ updated.names := by simp [named, new, last]
      rw [if_neg absent, before, last]
      exact iff_of_true rfl nofun
  | some value =>
      have still : name ∈ updated.names := by simp [named, last]
      rw [if_pos still, before, last, Option.bind_some]
      cases other : Dictionary.last? (namedRows (withoutTextKeys rows)) name with
      | none =>
          have given := last?_eq_get? fresh other
          rw [← given, last, Option.none_or, Option.some_or, Option.bind_some]
          exact iff_of_true rfl nofun
      | some otherValue =>
          rw [Option.some_or, Option.bind_some]
          constructor
          · intro same last other lastIs otherIs
            cases lastIs
            cases otherIs
            exact same
          · exact fun same => same value otherValue rfl rfl

end

theorem settles_again_iff (canonical : table.Canonical dictionary) (fresh : rows.Distinct)
    (first : table.Settles (Entries.putAll (table.written dictionary) rows) updated) :
    table.Settles (Entries.putAll (table.written updated) rows) updated ↔
      table.Consistent rows dictionary := by
  constructor
  · intro second name new
    exact (settled_again_iff canonical fresh first new).mp (second.settled name)
  · intro consistent
    refine
      { readable := readable_again canonical fresh first
        names := names_again canonical fresh first
        settled := ?_ }
    intro name
    by_cases known : name ∈ dictionary.names
    · exact settled_again_of_mem canonical fresh first known
    · exact (settled_again_iff canonical fresh first known).mpr (consistent name known)

end MappingTable

end Tables

end FormulaLint
