import FormulaLint.Catalogue
import FormulaLint.Proofs.Dictionaries

/-! What the index of a catalogue says. It is built rule by rule, and at every stage it agrees with
what can be read off the rules added so far. -/

namespace FormulaLint

namespace RuleIndex

/-! ## One rule -/

theorem fault?_eq_none_iff {index : RuleIndex} {rule : Rule} :
    index.fault? rule = none ↔
      familyOfId? rule.id = some rule.family ∧ index.positions.get? rule.id = none ∧
        rule.kinds ≠ [] ∧
        ∀ declared, index.orders.get? rule.family = some declared → declared = rule.order := by
  rw [fault?]
  split
  · next malformed => simp [malformed]
  · next wellFormed =>
      simp only [ne_eq, Decidable.not_not] at wellFormed
      split
      · next duplicate =>
          rw [Option.isSome_iff_ne_none] at duplicate
          simp [duplicate]
      · next fresh =>
          simp only [Bool.not_eq_true, Option.isSome_eq_false_iff, Option.isNone_iff_eq_none]
            at fresh
          split
          · next empty => simp [List.isEmpty_iff.mp empty]
          · next nonempty =>
              have kinds : rule.kinds ≠ [] := fun none => nonempty (List.isEmpty_iff.mpr none)
              cases known : index.orders.get? rule.family with
              | none => simp [wellFormed, fresh, kinds]
              | some declared =>
                  by_cases agree : declared = rule.order <;>
                    simp [wellFormed, fresh, kinds, agree]

@[simp] theorem positions_add (index : RuleIndex) (position : Nat) (rule : Rule) :
    (index.add position rule).positions = index.positions.put rule.id position := by
  simp only [add, addKinds, addFamily]
  split <;> rfl

@[simp] theorem byKind_add (index : RuleIndex) (position : Nat) (rule : Rule) (kind : SyntaxKind) :
    (index.add position rule).byKind kind =
      index.byKind kind ++ if rule.kinds.contains kind then [rule] else [] := by
  simp only [add, addKinds, addFamily]
  split <;> split <;> simp

theorem orders_add (index : RuleIndex) (position : Nat) (rule : Rule) (family : String) :
    (index.add position rule).orders.get? family =
      (index.orders.get? family).or (if rule.family = family then some rule.order else none) := by
  simp only [add, addKinds, addFamily]
  split
  · next declared known =>
      by_cases same : rule.family = family
      · subst same
        simp [known]
      · simp [same]
  · next unknown =>
      rw [Dictionary.get?_put]
      by_cases same : rule.family = family
      · subst same
        simp [unknown]
      · simp [same]

theorem families_add (index : RuleIndex) (position : Nat) (rule : Rule) :
    (index.add position rule).families =
      if (index.orders.get? rule.family).isSome then index.families
      else index.families ++ [rule.family] := by
  simp only [add, addKinds, addFamily]
  split
  · next declared known => simp [known]
  · next unknown => simp [unknown]

/-! ## All rules -/

/-- An index describes a list of rules if it says what can be read off the list, and if the ids of
the list are distinct and each family has one order. -/
structure Describes (index : RuleIndex) (rules : List Rule) : Prop where
  positions : ∀ id, index.positions.get? id = rules.findIdx? fun rule => rule.id = id
  orders : ∀ family,
    index.orders.get? family = (rules.find? fun rule => rule.family = family).map (·.order)
  families : index.families = (rules.map (·.family)).eraseDups
  byKind : ∀ kind, index.byKind kind = rules.filter fun rule => rule.kinds.contains kind
  distinct : (rules.map (·.id)).Nodup
  uniform : ∀ rule ∈ rules, index.orders.get? rule.family = some rule.order

namespace Describes

theorem empty : Describes {} [] where
  positions _ := rfl
  orders _ := rfl
  families := by simp
  byKind _ := rfl
  distinct := .nil
  uniform _ member := nomatch member

variable {index : RuleIndex} {rules : List Rule} {rule : Rule}

theorem isSome_orders_iff (described : index.Describes rules) (family : String) :
    (index.orders.get? family).isSome = true ↔ family ∈ rules.map (·.family) := by
  rw [described.orders, Option.isSome_map, List.find?_isSome, List.mem_map]
  simp only [decide_eq_true_eq]

theorem add (described : index.Describes rules) (admitted : index.fault? rule = none) :
    (index.add rules.length rule).Describes (rules ++ [rule]) := by
  rcases fault?_eq_none_iff.mp admitted with ⟨-, fresh, -, agreed⟩
  refine { positions := ?_, orders := ?_, families := ?_, byKind := ?_, distinct := ?_,
           uniform := ?_ }
  · intro id
    rw [positions_add, Dictionary.get?_put, List.findIdx?_append, ← described.positions]
    by_cases same : rule.id = id
    · subst same
      simp [fresh, List.findIdx?_cons]
    · simp [same, List.findIdx?_cons]
  · intro family
    rw [orders_add, described.orders, List.find?_append, Option.map_or]
    by_cases same : rule.family = family <;> simp [same]
  · rw [families_add, List.map_append, List.map_singleton, eraseDups_concat, ← described.families]
    by_cases known : rule.family ∈ rules.map (·.family)
    · rw [if_pos ((described.isSome_orders_iff _).mpr known), if_pos known, List.append_nil]
    · rw [if_neg fun isSome => known ((described.isSome_orders_iff _).mp isSome), if_neg known]
  · intro kind
    rw [byKind_add, described.byKind, List.filter_append, List.filter_singleton, cond_eq_ite]
  · have unused : rule.id ∉ rules.map (·.id) := by
      rw [described.positions, List.findIdx?_eq_none_iff] at fresh
      intro member
      rcases List.mem_map.mp member with ⟨other, otherMember, same⟩
      simpa [same] using fresh other otherMember
    rw [List.map_append, List.nodup_append]
    refine ⟨described.distinct, by simp, ?_⟩
    intro left leftMember right rightMember equal
    simp only [List.map_cons, List.map_nil, List.mem_singleton] at rightMember
    exact unused (rightMember ▸ equal ▸ leftMember)
  · intro other member
    rw [orders_add]
    rcases List.mem_append.mp member with earlier | last
    · simp [described.uniform other earlier]
    · have equal : other = rule := List.mem_singleton.mp last
      subst equal
      cases known : index.orders.get? other.family with
      | none => simp
      | some declared => simp [agreed declared known]

/-- Rules are added one after another until none is left. -/
theorem addAll {rest : List Rule} {final : RuleIndex} (described : index.Describes rules)
    (added : index.addAll rules.length rest = .ok final) : final.Describes (rules ++ rest) := by
  induction rest generalizing index rules with
  | nil =>
      rw [RuleIndex.addAll] at added
      injection added with equal
      simpa [equal] using described
  | cons rule rest induction =>
      rw [RuleIndex.addAll] at added
      split at added
      · cases added
      · next admitted =>
          have next := described.add admitted
          have complete := induction next (by simpa using added)
          simpa using complete

end Describes

private theorem describes_of_ofRules {rules : List Rule} {index : RuleIndex}
    (indexed : ofRules rules = .ok index) : index.Describes rules := by
  have described : index.Describes ([] ++ rules) := Describes.empty.addAll indexed
  exact described

/-! ## Lists without fault -/

structure Faultless (rules : List Rule) : Prop where
  named : ∀ rule ∈ rules, familyOfId? rule.id = some rule.family
  looking : ∀ rule ∈ rules, rule.kinds ≠ []
  distinct : (rules.map (·.id)).Nodup
  uniform : rules.Pairwise fun left right => left.family = right.family → left.order = right.order

theorem Faultless.sublist {rules some : List Rule} (faultless : Faultless rules)
    (among : some.Sublist rules) : Faultless some where
  named rule member := faultless.named rule (among.mem member)
  looking rule member := faultless.looking rule (among.mem member)
  distinct := faultless.distinct.sublist (among.map _)
  uniform := faultless.uniform.sublist among

theorem faultless_nil : Faultless [] where
  named _ member := nomatch member
  looking _ member := nomatch member
  distinct := .nil
  uniform := .nil

theorem Describes.fault?_eq_none_iff {index : RuleIndex} {rules : List Rule}
    (described : index.Describes rules) (faultless : Faultless rules) (rule : Rule) :
    index.fault? rule = none ↔ Faultless (rules ++ [rule]) := by
  have fresh : index.positions.get? rule.id = none ↔ rule.id ∉ rules.map (·.id) := by
    rw [described.positions, List.findIdx?_eq_none_iff]
    simp
  have agreed : (∀ declared, index.orders.get? rule.family = some declared →
      declared = rule.order) ↔ ∀ other ∈ rules, other.family = rule.family →
        other.order = rule.order := by
    constructor
    · intro same other member family
      exact same other.order (family ▸ described.uniform other member)
    · intro same declared known
      rw [described.orders] at known
      rcases Option.map_eq_some_iff.mp known with ⟨other, found, rfl⟩
      have family := List.find?_some found
      exact same other (List.mem_of_find?_eq_some found) (of_decide_eq_true family)
  rw [RuleIndex.fault?_eq_none_iff, fresh, agreed]
  constructor
  · rintro ⟨named, unused, looking, same⟩
    refine { named := ?_, looking := ?_, distinct := ?_, uniform := ?_ }
    · exact List.forall_mem_append.mpr ⟨faultless.named, List.forall_mem_singleton.mpr named⟩
    · exact List.forall_mem_append.mpr ⟨faultless.looking, List.forall_mem_singleton.mpr looking⟩
    · rw [List.map_append, List.map_singleton, List.nodup_append]
      refine ⟨faultless.distinct, List.nodup_singleton _, ?_⟩
      rintro id earlier last member rfl
      exact unused (List.mem_singleton.mp member ▸ earlier)
    · refine List.pairwise_append.mpr ⟨faultless.uniform, List.pairwise_singleton _ _, ?_⟩
      intro other member last lastMember
      rw [List.mem_singleton.mp lastMember]
      exact same other member
  · intro whole
    have distinct := whole.distinct
    rw [List.map_append, List.map_singleton, List.nodup_append] at distinct
    have last : rule ∈ rules ++ [rule] := List.mem_append_right _ (List.mem_singleton_self _)
    refine ⟨whole.named rule last, ?_, whole.looking rule last, ?_⟩
    · intro used
      exact distinct.2.2 rule.id used rule.id (List.mem_singleton_self _) rfl
    · intro other member
      exact (List.pairwise_append.mp whole.uniform).2.2 other member rule
        (List.mem_singleton_self _)

theorem Describes.exists_addAll_iff {index : RuleIndex} {rules rest : List Rule}
    (described : index.Describes rules) (faultless : Faultless rules) :
    (∃ final, index.addAll rules.length rest = .ok final) ↔ Faultless (rules ++ rest) := by
  induction rest generalizing index rules with
  | nil => simpa [RuleIndex.addAll] using faultless
  | cons rule rest induction =>
      rw [RuleIndex.addAll, List.append_cons rules rule rest]
      cases admitted : index.fault? rule with
      | none =>
          have next := (described.fault?_eq_none_iff faultless rule).mp admitted
          have later := induction (described.add admitted) next
          rwa [List.length_append, List.length_singleton] at later
      | some fault =>
          have refused : ¬Faultless (rules ++ [rule] ++ rest) := by
            intro whole
            have admits := (described.fault?_eq_none_iff faultless rule).mpr
              (whole.sublist (List.sublist_append_left _ _))
            rw [admitted] at admits
            cases admits
          exact iff_of_false nofun refused

/-- A list of rules has an index just if it has no fault. -/
theorem exists_ofRules_iff {rules : List Rule} :
    (∃ index, ofRules rules = .ok index) ↔ Faultless rules :=
  Describes.empty.exists_addAll_iff faultless_nil

end RuleIndex

/-! ## Catalogues -/

namespace Catalogue

variable (catalogue : Catalogue)

theorem describes : catalogue.index.Describes catalogue.rules :=
  RuleIndex.describes_of_ofRules catalogue.indexed

theorem nodup_ids : catalogue.ids.Nodup :=
  catalogue.describes.distinct

theorem families_eq : catalogue.families = (catalogue.rules.map (·.family)).eraseDups :=
  catalogue.describes.families

theorem nodup_families : catalogue.families.Nodup := by
  rw [families_eq]
  exact nodup_eraseDups _

theorem mem_families {rule : Rule} (member : rule ∈ catalogue.rules) :
    rule.family ∈ catalogue.families := by
  rw [families_eq, List.mem_eraseDups]
  exact List.mem_map_of_mem member

theorem rulesOfKind_eq (kind : SyntaxKind) :
    catalogue.rulesOfKind kind = catalogue.rules.filter fun rule => rule.kinds.contains kind :=
  catalogue.describes.byKind kind

theorem order?_family {rule : Rule} (member : rule ∈ catalogue.rules) :
    catalogue.order? rule.family = some rule.order :=
  catalogue.describes.uniform rule member

theorem eq_of_id_eq {left right : Rule} (leftMember : left ∈ catalogue.rules)
    (rightMember : right ∈ catalogue.rules) (same : left.id = right.id) : left = right :=
  List.inj_on_of_nodup_map catalogue.nodup_ids leftMember rightMember same

theorem position?_of_getElem? {position : Nat} {rule : Rule}
    (stands : catalogue.rules[position]? = some rule) :
    catalogue.position? rule.id = some position := by
  rcases List.getElem?_eq_some_iff.mp stands with ⟨bound, equal⟩
  subst equal
  rw [position?, catalogue.describes.positions, List.findIdx?_eq_some_iff_getElem]
  refine ⟨bound, by simp, ?_⟩
  intro earlier before same
  simp only [decide_eq_true_eq] at same
  have first : earlier < catalogue.ids.length := by
    simp only [ids, List.length_map]
    omega
  have second : position < catalogue.ids.length := by
    simpa only [ids, List.length_map] using bound
  have sameId : catalogue.ids[earlier] = catalogue.ids[position] := by
    simpa only [ids, List.getElem_map] using same
  have together : earlier = position := (catalogue.nodup_ids.getElem_inj_iff).mp sameId
  omega

theorem find?_of_mem {rule : Rule} (member : rule ∈ catalogue.rules) :
    catalogue.find? rule.id = some rule := by
  rcases List.mem_iff_getElem?.mp member with ⟨position, stands⟩
  rw [find?, catalogue.position?_of_getElem? stands, Option.bind_some, stands]

theorem faultless : RuleIndex.Faultless catalogue.rules :=
  RuleIndex.exists_ofRules_iff.mp ⟨_, catalogue.indexed⟩

theorem exists_of_faultless {rules : List Rule} (faultless : RuleIndex.Faultless rules) :
    ∃ catalogue, ofRules rules = .ok catalogue ∧ catalogue.rules = rules := by
  rcases RuleIndex.exists_ofRules_iff.mpr faultless with ⟨index, indexed⟩
  refine ⟨⟨rules, index, indexed⟩, ?_, rfl⟩
  unfold ofRules
  split
  · next other found =>
      rw [indexed] at found
      cases found
      rfl
  · next fault failed =>
      rw [indexed] at failed
      cases failed

end Catalogue

end FormulaLint
