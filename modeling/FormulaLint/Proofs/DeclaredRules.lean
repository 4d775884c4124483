import FormulaLint.Proofs.Outcomes
import FormulaLint.Proofs.RuleIndex
import FormulaLint.Text.Search

/-! Lists of rules that a catalogue can be made of. Each check looks at what has been indexed of the
rules in front; together they ask for what can be said of the list as a whole, and the first rule
that offends decides the fault. -/

namespace FormulaLint

/-! ## Ids -/

private theorem takeWhile_append_slash {front back : List Char} (absent : '/' ∉ front) :
    (front ++ '/' :: back).takeWhile (· != '/') = front := by
  rw [Text.takeWhile_append_of_notMem absent, List.takeWhile_cons_of_neg (by simp),
    List.append_nil]

theorem familyOfId?_eq_some_iff {id family : String} :
    familyOfId? id = some family ↔
      '/' ∉ family.toList ∧ ∃ name, id = family ++ "/" ++ name := by
  rw [familyOfId?]
  constructor
  · intro names
    split at names
    · next contains =>
        rcases List.eq_append_cons_of_mem (List.contains_iff_mem.mp contains) with
          ⟨front, back, chars, absent⟩
        rw [chars, takeWhile_append_slash absent] at names
        cases names
        refine ⟨by rwa [String.toList_ofList], String.ofList back, ?_⟩
        rw [← String.toList_inj, chars]
        simp
    · cases names
  · rintro ⟨absent, name, rfl⟩
    have chars : (family ++ "/" ++ name).toList = family.toList ++ '/' :: name.toList := by simp
    rw [chars, takeWhile_append_slash absent, String.ofList_toList]
    exact if_pos (List.contains_iff_mem.mpr (by simp))

/-- The id of a rule is its family, a slash and a name, and the family has no slash. -/
def Rule.NamesFamily (rule : Rule) : Prop :=
  '/' ∉ rule.family.toList ∧ ∃ name, rule.id = rule.family ++ "/" ++ name

/-! ## Lists without an offender -/

/-- What is asked of the rules of a catalogue. -/
structure WellDeclared (rules : List Rule) : Prop where
  named : ∀ rule ∈ rules, rule.NamesFamily
  distinct : rules.Pairwise fun left right => left.id ≠ right.id
  looking : ∀ rule ∈ rules, rule.kinds ≠ []
  uniform : ∀ left ∈ rules, ∀ right ∈ rules, left.family = right.family → left.order = right.order

theorem wellDeclared_iff {rules : List Rule} : WellDeclared rules ↔ RuleIndex.Faultless rules := by
  constructor
  · intro declared
    refine ⟨fun rule member => ?_, declared.looking, ?_, ?_⟩
    · exact familyOfId?_eq_some_iff.mpr (declared.named rule member)
    · exact List.pairwise_map.mpr declared.distinct
    · exact List.pairwise_of_forall_mem_list declared.uniform
  · intro faultless
    refine ⟨fun rule member => ?_, ?_, faultless.looking, ?_⟩
    · exact familyOfId?_eq_some_iff.mp (faultless.named rule member)
    · exact List.pairwise_map.mp faultless.distinct
    · intro left leftMember right rightMember same
      rcases Catalogue.exists_of_faultless faultless with ⟨catalogue, -, rfl⟩
      have declared := catalogue.order?_family rightMember
      rw [← same, catalogue.order?_family leftMember] at declared
      exact Option.some.inj declared

/-! ## The first offender -/

/-- What is wrong with a rule that stands behind others. A rule that offends in several ways is held
to the first of them. -/
inductive Offends (front : List Rule) (rule : Rule) : CatalogueFault → Prop
  | malformed (misnamed : ¬ rule.NamesFamily) :
      Offends front rule (.malformedId rule.id rule.family)
  | duplicate (named : rule.NamesFamily) (used : ∃ other ∈ front, other.id = rule.id) :
      Offends front rule (.duplicateId rule.id)
  | blind (named : rule.NamesFamily) (fresh : ∀ other ∈ front, other.id ≠ rule.id)
      (empty : rule.kinds = []) :
      Offends front rule (.noKinds rule.id)
  | conflict {other : Rule} (named : rule.NamesFamily) (fresh : ∀ other ∈ front, other.id ≠ rule.id)
      (looking : rule.kinds ≠ []) (member : other ∈ front) (akin : other.family = rule.family)
      (differs : other.order ≠ rule.order) :
      Offends front rule (.orderConflict rule.id rule.family rule.order other.order)

namespace RuleIndex

variable {index : RuleIndex} {rules rest : List Rule} {rule : Rule} {fault : CatalogueFault}

theorem Describes.get?_positions_iff (described : index.Describes rules) {id : String} :
    (index.positions.get? id).isSome = true ↔ ∃ other ∈ rules, other.id = id := by
  rw [described.positions, Option.isSome_iff_ne_none, ne_eq, List.findIdx?_eq_none_iff]
  simp

theorem Describes.get?_orders_iff (described : index.Describes rules) {family : String}
    {order : ReportOrder} :
    index.orders.get? family = some order ↔
      ∃ other ∈ rules, other.family = family ∧ other.order = order := by
  constructor
  · intro known
    rw [described.orders] at known
    rcases Option.map_eq_some_iff.mp known with ⟨other, found, rfl⟩
    have akin := List.find?_some found
    exact ⟨other, List.mem_of_find?_eq_some found, of_decide_eq_true akin, rfl⟩
  · rintro ⟨other, member, rfl, rfl⟩
    exact described.uniform other member

theorem Describes.fault?_eq_some_iff (described : index.Describes rules) :
    index.fault? rule = some fault ↔ Offends rules rule fault := by
  have named : familyOfId? rule.id = some rule.family ↔ rule.NamesFamily := familyOfId?_eq_some_iff
  have used : (index.positions.get? rule.id).isSome = true ↔ ∃ other ∈ rules, other.id = rule.id :=
    described.get?_positions_iff
  have fresh : ¬ (index.positions.get? rule.id).isSome = true ↔
      ∀ other ∈ rules, other.id ≠ rule.id := by
    rw [used]
    simp
  rw [fault?]
  constructor
  · intro finds
    split at finds
    · next misnamed =>
        cases finds
        exact .malformed fun names => misnamed (named.mpr names)
    · next names =>
        have names := named.mp (not_not.mp names)
        split at finds
        · next known =>
            cases finds
            exact .duplicate names (used.mp known)
        · next unknown =>
            have unknown := fresh.mp unknown
            split at finds
            · next empty =>
                cases finds
                exact .blind names unknown (List.isEmpty_iff.mp empty)
            · next looking =>
                have looking : rule.kinds ≠ [] := fun empty => looking (List.isEmpty_iff.mpr empty)
                split at finds
                · cases finds
                · next declared known =>
                    rcases described.get?_orders_iff.mp known with ⟨other, member, akin, rfl⟩
                    split at finds
                    · cases finds
                    · next differs =>
                        cases finds
                        exact .conflict names unknown looking member akin differs
  · intro offends
    cases offends with
    | malformed misnamed => exact if_pos fun names => misnamed (named.mp names)
    | duplicate names known =>
        rw [if_neg (not_not.mpr (named.mpr names)), if_pos (used.mpr known)]
    | blind names unknown empty =>
        rw [if_neg (not_not.mpr (named.mpr names)), if_neg (fresh.mpr unknown),
          if_pos (List.isEmpty_iff.mpr empty)]
    | conflict names unknown looking member akin differs =>
        rw [if_neg (not_not.mpr (named.mpr names)), if_neg (fresh.mpr unknown),
          if_neg fun empty => looking (List.isEmpty_iff.mp empty),
          described.get?_orders_iff.mpr ⟨_, member, akin, rfl⟩]
        exact if_neg differs

/-- Adding rules fails just at the first one that offends. -/
theorem Describes.addAll_eq_error_iff (described : index.Describes rules)
    (faultless : Faultless rules) :
    index.addAll rules.length rest = .error fault ↔
      ∃ front rule back, rest = front ++ rule :: back ∧ Faultless (rules ++ front) ∧
        Offends (rules ++ front) rule fault := by
  induction rest generalizing index rules with
  | nil => exact iff_of_false nofun fun ⟨front, _, _, split, _⟩ => by simp at split
  | cons first later induction =>
      rw [RuleIndex.addAll]
      cases checked : index.fault? first with
      | some found =>
          constructor
          · intro fails
            cases fails
            refine ⟨[], first, later, rfl, ?_, ?_⟩
            · rwa [List.append_nil]
            · rw [List.append_nil]
              exact described.fault?_eq_some_iff.mp checked
          · rintro ⟨front, rule, back, split, before, offends⟩
            cases front with
            | nil =>
                cases split
                rw [List.append_nil] at offends
                rw [← checked, described.fault?_eq_some_iff.mpr offends]
            | cons head front =>
                cases split
                have admits := (described.fault?_eq_none_iff faultless first).mpr
                  (before.sublist (by simp))
                rw [admits] at checked
                cases checked
      | none =>
          have admitted := (described.fault?_eq_none_iff faultless first).mp checked
          have onward := induction (described.add checked) admitted
          rw [List.length_append, List.length_singleton] at onward
          dsimp only
          rw [onward]
          constructor
          · rintro ⟨front, rule, back, rfl, before, offends⟩
            refine ⟨first :: front, rule, back, rfl, ?_, ?_⟩
            · rwa [List.append_cons]
            · rwa [List.append_cons]
          · rintro ⟨front, rule, back, split, before, offends⟩
            cases front with
            | nil =>
                cases split
                rw [List.append_nil] at offends
                rw [described.fault?_eq_some_iff.mpr offends] at checked
                cases checked
            | cons head front =>
                cases split
                rw [List.append_cons] at before offends
                exact ⟨front, rule, back, rfl, before, offends⟩

end RuleIndex

/-! ## Catalogues -/

theorem pairwise_idxOf_eraseDups (values : List String) :
    values.eraseDups.Pairwise fun earlier later => values.idxOf earlier < values.idxOf later := by
  induction values using List.reverseRecOn with
  | nil => exact .nil
  | append_singleton values value induction =>
      have kept : ∀ name ∈ values, (values ++ [value]).idxOf name = values.idxOf name :=
        fun name member => List.idxOf_append_of_mem member
      have before : values.eraseDups.Pairwise fun earlier later =>
          (values ++ [value]).idxOf earlier < (values ++ [value]).idxOf later := by
        refine induction.imp_of_mem fun earlierMember laterMember less => ?_
        rwa [kept _ (List.mem_eraseDups.mp earlierMember),
          kept _ (List.mem_eraseDups.mp laterMember)]
      rw [eraseDups_concat]
      split
      · rwa [List.append_nil]
      · next fresh =>
          refine List.pairwise_append.mpr ⟨before, List.pairwise_singleton _ _, ?_⟩
          intro earlier member last lastMember
          have known := List.mem_eraseDups.mp member
          rw [List.mem_singleton.mp lastMember, kept earlier known,
            List.idxOf_append_of_notMem fresh]
          exact Nat.lt_of_lt_of_le (List.idxOf_lt_length_of_mem known) (Nat.le_add_right _ _)

namespace Catalogue

variable {rules : List Rule} {fault : CatalogueFault}

/-- What a catalogue tells about the rules that it is made of. -/
structure Tells (catalogue : Catalogue) (rules : List Rule) : Prop where
  kept : catalogue.rules = rules
  single : ∀ left ∈ rules, ∀ right ∈ rules, left.id = right.id → left = right
  found : ∀ id rule, catalogue.find? id = some rule ↔ rule ∈ rules ∧ rule.id = id
  placed : ∀ id position, catalogue.position? id = some position ↔
    ∃ rule, rules[position]? = some rule ∧ rule.id = id
  looking : ∀ kind, catalogue.rulesOfKind kind = rules.filter fun rule => kind ∈ rule.kinds
  once : ∀ kind, (catalogue.rulesOfKind kind).Nodup
  named : ∀ family, family ∈ catalogue.families ↔ ∃ rule ∈ rules, rule.family = family
  inOrder : catalogue.families.Pairwise fun earlier later =>
    (rules.map (·.family)).idxOf earlier < (rules.map (·.family)).idxOf later
  ordered : ∀ family order, catalogue.order? family = some order ↔
    ∃ rule ∈ rules, rule.family = family ∧ rule.order = order

theorem position?_eq_some_iff (catalogue : Catalogue) {id : String} {position : Nat} :
    catalogue.position? id = some position ↔
      ∃ rule, catalogue.rules[position]? = some rule ∧ rule.id = id := by
  constructor
  · intro placed
    rw [position?, catalogue.describes.positions, List.findIdx?_eq_some_iff_getElem] at placed
    rcases placed with ⟨bound, same, -⟩
    exact ⟨catalogue.rules[position], List.getElem?_eq_getElem bound, of_decide_eq_true same⟩
  · rintro ⟨rule, stands, rfl⟩
    exact catalogue.position?_of_getElem? stands

theorem find?_eq_some_iff (catalogue : Catalogue) {id : String} {rule : Rule} :
    catalogue.find? id = some rule ↔ rule ∈ catalogue.rules ∧ rule.id = id := by
  constructor
  · intro found
    rcases Option.bind_eq_some_iff.mp found with ⟨position, placed, stands⟩
    rcases catalogue.position?_eq_some_iff.mp placed with ⟨other, otherStands, same⟩
    rw [stands] at otherStands
    cases otherStands
    exact ⟨List.mem_of_getElem? stands, same⟩
  · rintro ⟨member, rfl⟩
    exact catalogue.find?_of_mem member

theorem tells (catalogue : Catalogue) : catalogue.Tells catalogue.rules where
  kept := rfl
  single _ leftMember _ rightMember same := catalogue.eq_of_id_eq leftMember rightMember same
  found _ _ := catalogue.find?_eq_some_iff
  placed _ _ := catalogue.position?_eq_some_iff
  looking kind := by
    rw [rulesOfKind_eq]
    simp
  once kind := by
    rw [rulesOfKind_eq]
    exact (List.Nodup.of_map _ catalogue.nodup_ids).filter _
  named family := by
    rw [families_eq, List.mem_eraseDups, List.mem_map]
  inOrder := by
    rw [families_eq]
    exact pairwise_idxOf_eraseDups _
  ordered _ _ := catalogue.describes.get?_orders_iff

theorem rules_of_ofRules {catalogue : Catalogue} (made : ofRules rules = .ok catalogue) :
    catalogue.rules = rules := by
  unfold ofRules at made
  split at made
  all_goals cases made
  rfl

theorem exists_ofRules_iff : (∃ catalogue, ofRules rules = .ok catalogue) ↔ WellDeclared rules := by
  rw [wellDeclared_iff]
  constructor
  · rintro ⟨catalogue, made⟩
    have faultless := catalogue.faultless
    rwa [rules_of_ofRules made] at faultless
  · intro faultless
    rcases exists_of_faultless faultless with ⟨catalogue, made, -⟩
    exact ⟨catalogue, made⟩

theorem ofRules_eq_error_iff :
    ofRules rules = .error fault ↔
      ∃ front rule rest, rules = front ++ rule :: rest ∧ WellDeclared front ∧
        Offends front rule fault := by
  have fails : ofRules rules = .error fault ↔ RuleIndex.ofRules rules = .error fault := by
    unfold ofRules
    split
    · next index indexed => exact iff_of_false nofun fun failed => nomatch indexed.symm.trans failed
    · next found failed => rw [failed, Except.error.injEq, Except.error.injEq]
  have adds : RuleIndex.ofRules rules = .error fault ↔ _ :=
    RuleIndex.Describes.empty.addAll_eq_error_iff RuleIndex.faultless_nil
  simp only [fails, adds, wellDeclared_iff, List.nil_append]

/-- A catalogue is made of a list of rules just if they are well declared, and tells what can be
read off the list. Otherwise the first rule that offends decides the fault. -/
theorem ofRules_iff_wellDeclared (rules : List Rule) :
    ((∃ catalogue, ofRules rules = .ok catalogue) ↔ WellDeclared rules) ∧
      (∀ catalogue, ofRules rules = .ok catalogue → catalogue.Tells rules) ∧
      ∀ fault, ofRules rules = .error fault ↔
        ∃ front rule rest, rules = front ++ rule :: rest ∧ WellDeclared front ∧
          Offends front rule fault := by
  refine ⟨exists_ofRules_iff, ?_, fun fault => ofRules_eq_error_iff⟩
  intro catalogue made
  have tells := catalogue.tells
  rwa [rules_of_ofRules made] at tells

/-! ## Three rules and a fourth -/

def plainRules : List Rule := [
  .convention "Lines" "Length" [.program] fun _ _ => [],
  .convention "Comments" "Todo" [.comment, .program] fun _ _ => [],
  .convention "Lines" "Blank" [.program] fun _ _ => []]

def reversedRule : Rule :=
  { Rule.convention "Lines" "Last" [.program] fun _ _ => [] with order := .descending }

theorem ofRules_plainRules :
    (∃ catalogue, ofRules plainRules = .ok catalogue ∧ catalogue.Tells plainRules) ∧
      ofRules (plainRules ++ [reversedRule]) =
        .error (.orderConflict "Lines/Last" "Lines" .descending .ascending) := by
  rcases ofRules_iff_wellDeclared plainRules with ⟨made, tells, -⟩
  rcases ofRules_iff_wellDeclared (plainRules ++ [reversedRule]) with ⟨-, -, fails⟩
  have declared : WellDeclared plainRules := by
    refine wellDeclared_iff.mpr (RuleIndex.exists_ofRules_iff.mp ?_)
    exact FormulaLint.Except.exists_of_isOk (by decide +kernel)
  constructor
  · rcases made.mpr declared with ⟨catalogue, succeeds⟩
    exact ⟨catalogue, succeeds, tells catalogue succeeds⟩
  · refine (fails _).mpr ⟨plainRules, reversedRule, [], rfl, declared, ?_⟩
    refine .conflict ⟨by decide, "Last", rfl⟩ ?_ (List.cons_ne_nil _ _) List.mem_cons_self rfl nofun
    simp [reversedRule, Rule.convention]

end Catalogue

end FormulaLint
