import FormulaLint.Proofs.RecordedGroups

/-! Expressions of which every way is found. Without repetitions, and with nothing that depends on
what a group took or that must not match, an expression succeeds wherever one of its ways leads on
to success. Words are what the ways through single characters lead over. -/

namespace FormulaLint.Pattern

variable {start stop other : Progress}

/-! ## Places -/

namespace Progress

private theorem behind_behind (start : Progress) (taken others rest further : List Char) :
    (start.behind taken further).behind others rest = start.behind (taken ++ others) rest := by
  simp [behind]

/-- Two states at one place of one text. They differ in their groups at most. -/
structure SamePlace (here there : Progress) : Prop where
  before : here.before = there.before
  rest : here.rest = there.rest

end Progress

theorem Anchor.holds_congr (place : Anchor) (same : start.SamePlace other) :
    place.holds start = place.holds other := by
  cases place <;> simp only [holds, wordBefore, wordAfter, same.before, same.rest]

def SucceedAlike (next others : Continuation) : Prop :=
  ∀ here there, here.SamePlace there → (next here).isSome = (others there).isSome

theorem succeedAlike_some : SucceedAlike some some :=
  fun _ _ _ => rfl

namespace Expression

variable {expression : Expression} {next others : Continuation}

/-! ## Plain expressions -/

def isPlain : Expression → Bool
  | .empty | .char _ | .anchor _ => true
  | .sequence first second | .either first second => first.isPlain && second.isPlain
  | .group _ body | .ahead false body => body.isPlain
  | _ => false

theorem isSome_firstOf (first second : Continuation) (here : Progress) :
    (firstOf first second here).isSome = ((first here).isSome || (second here).isSome) := by
  rw [firstOf]
  cases first here <;> rfl

private theorem succeedAlike_run (plain : expression.isPlain = true)
    (alike : SucceedAlike next others) :
    SucceedAlike (expression.run next) (expression.run others) := by
  induction expression generalizing next others with
  | empty => exact alike
  | char test =>
      intro here there same
      rw [run, run, same.rest]
      split
      · rfl
      · split
        · exact alike _ _ ⟨by simp only [same.before], rfl⟩
        · rfl
  | anchor place =>
      intro here there same
      rw [run, run, place.holds_congr same]
      split
      · exact alike here there same
      · rfl
  | sequence first second firstAlike secondAlike =>
      rw [isPlain, Bool.and_eq_true] at plain
      exact firstAlike plain.1 (secondAlike plain.2 alike)
  | either first second firstAlike secondAlike =>
      rw [isPlain, Bool.and_eq_true] at plain
      intro here there same
      rw [run, run, isSome_firstOf, isSome_firstOf, firstAlike plain.1 alike here there same,
        secondAlike plain.2 alike here there same]
  | group number body bodyAlike =>
      intro here there same
      apply bodyAlike plain _ here there same
      intro later further sameLater
      exact alike _ _ ⟨sameLater.before, sameLater.rest⟩
  | ahead negated body bodyAlike =>
      cases negated with
      | true => cases plain
      | false =>
          intro here there same
          have found := bodyAlike plain succeedAlike_some here there same
          rw [run, run]
          cases first : body.run some here with
          | none =>
              rw [first, Option.isSome_none, eq_comm, Option.isSome_eq_false_iff,
                Option.isNone_iff_eq_none] at found
              rw [found]
          | some later =>
              rw [first, Option.isSome_some, eq_comm, Option.isSome_iff_exists] at found
              rcases found with ⟨further, second⟩
              rw [second]
              exact alike _ _ ⟨same.before, same.rest⟩
  | repetition | «recall» | commit => cases plain

/-- A plain expression succeeds where it can lead to a place at which the rest succeeds. -/
theorem Leads.isSome_run (leads : expression.Leads start stop) (plain : expression.isPlain = true)
    (alike : SucceedAlike next next) (succeeds : (next stop).isSome = true) :
    (expression.run next start).isSome = true := by
  induction leads generalizing next with
  | empty => exact succeeds
  | char ahead holds =>
      rw [run, ahead]
      simp only [holds, if_true]
      exact (alike _ _ ⟨rfl, rfl⟩).trans succeeds
  | anchor holds => rwa [run, if_pos holds]
  | sequence _ _ first second =>
      rw [isPlain, Bool.and_eq_true] at plain
      exact first plain.1 (succeedAlike_run plain.2 alike) (second plain.2 alike succeeds)
  | first _ induction =>
      rw [isPlain, Bool.and_eq_true] at plain
      rw [run, isSome_firstOf, induction plain.1 alike succeeds, Bool.true_or]
  | second _ induction =>
      rw [isPlain, Bool.and_eq_true] at plain
      rw [run, isSome_firstOf, induction plain.2 alike succeeds, Bool.or_true]
  | group _ _ induction =>
      apply induction plain
      · intro here there same
        exact alike _ _ ⟨same.before, same.rest⟩
      · refine (alike _ _ ?_).trans succeeds
        exact ⟨rfl, rfl⟩
  | ahead _ induction =>
      rcases Option.isSome_iff_exists.mp (induction plain succeedAlike_some rfl) with ⟨later, made⟩
      rw [run, made]
      refine (alike _ _ ?_).trans succeeds
      exact ⟨rfl, rfl⟩
  | done | again | «recall» | notAhead | commit => cases plain

theorem isSome_search_of_leads {text : String} (plain : expression.isPlain = true)
    (leads : expression.Leads (.atStart text.toList) stop) :
    (expression.search text).isSome = true := by
  have made : (expression.run some ⟨[], text.toList, []⟩).isSome = true :=
    leads.isSome_run plain succeedAlike_some rfl
  rw [search]
  cases chars : text.toList with
  | nil =>
      rw [chars] at made
      rwa [searchFrom, Option.isSome_map]
  | cons c rest =>
      rw [chars] at made
      rcases Option.isSome_iff_exists.mp made with ⟨later, made⟩
      rw [searchFrom, made]
      rfl

/-! ## Sequences -/

theorem leads_sequenceOf_cons {first : Expression} {rest : List Expression} :
    (sequenceOf (first :: rest)).Leads start stop ↔
      ∃ middle, first.Leads start middle ∧ (sequenceOf rest).Leads middle stop := by
  cases rest with
  | nil =>
      constructor
      · exact fun leads => ⟨stop, leads, .empty⟩
      · rintro ⟨middle, leads, nothing⟩
        cases nothing
        exact leads
  | cons second others =>
      constructor
      · intro leads
        cases leads with
        | sequence front back => exact ⟨_, front, back⟩
      · rintro ⟨middle, front, back⟩
        exact .sequence front back

theorem leads_sequenceOf_append {front back : List Expression} :
    (sequenceOf (front ++ back)).Leads start stop ↔
      ∃ middle, (sequenceOf front).Leads start middle ∧ (sequenceOf back).Leads middle stop := by
  induction front generalizing start with
  | nil =>
      constructor
      · exact fun leads => ⟨start, .empty, leads⟩
      · rintro ⟨middle, nothing, leads⟩
        cases nothing
        exact leads
  | cons first rest induction =>
      rw [List.cons_append, leads_sequenceOf_cons]
      simp only [induction, leads_sequenceOf_cons]
      constructor
      · rintro ⟨middle, once, further, others, leads⟩
        exact ⟨further, ⟨middle, once, others⟩, leads⟩
      · rintro ⟨further, ⟨middle, once, others⟩, leads⟩
        exact ⟨middle, once, further, others, leads⟩

/-! ## Words -/

/-- An expression spells certain words: it leads over these, wherever they stand, and over nothing
else. -/
def Spells (expression : Expression) (words : List Char → Prop) : Prop :=
  ∀ start stop, expression.Leads start stop ↔
    ∃ word rest, words word ∧ start.rest = word ++ rest ∧ stop = start.behind word rest

variable {words further : List Char → Prop}

theorem Spells.congr (spells : expression.Spells words)
    (same : ∀ word, words word ↔ further word) : expression.Spells further := by
  intro start stop
  simp only [spells start stop, same]

private theorem spells_empty : Expression.empty.Spells (· = []) := by
  intro start stop
  constructor
  · intro leads
    cases leads
    exact ⟨[], start.rest, rfl, rfl, rfl⟩
  · rintro ⟨_, rest, rfl, rfl, rfl⟩
    exact .empty

theorem spells_char (test : CharTest) :
    (char test).Spells fun word => ∃ c, test.holds c = true ∧ word = [c] := by
  intro start stop
  constructor
  · intro leads
    cases leads with
    | char ahead holds => exact ⟨_, _, ⟨_, holds, rfl⟩, ahead, rfl⟩
  · rintro ⟨_, rest, ⟨c, holds, rfl⟩, ahead, rfl⟩
    exact .char ahead holds

private theorem spells_either {first second : Expression} (firstSpells : first.Spells words)
    (secondSpells : second.Spells further) :
    (either first second).Spells fun word => words word ∨ further word := by
  intro start stop
  constructor
  · intro leads
    cases leads with
    | first leads =>
        rcases (firstSpells start stop).mp leads with ⟨word, rest, known, passed⟩
        exact ⟨word, rest, .inl known, passed⟩
    | second leads =>
        rcases (secondSpells start stop).mp leads with ⟨word, rest, known, passed⟩
        exact ⟨word, rest, .inr known, passed⟩
  · rintro ⟨word, rest, known | known, passed⟩
    · exact .first ((firstSpells start stop).mpr ⟨word, rest, known, passed⟩)
    · exact .second ((secondSpells start stop).mpr ⟨word, rest, known, passed⟩)

theorem spells_sequenceOf_append {first second : List Expression}
    (firstSpells : (sequenceOf first).Spells words)
    (secondSpells : (sequenceOf second).Spells further) :
    (sequenceOf (first ++ second)).Spells fun word =>
      ∃ front back, words front ∧ further back ∧ word = front ++ back := by
  intro start stop
  rw [leads_sequenceOf_append]
  constructor
  · rintro ⟨middle, leads, later⟩
    rcases (firstSpells start middle).mp leads with ⟨front, ahead, known, passed, rfl⟩
    rcases (secondSpells _ stop).mp later with ⟨back, rest, alsoKnown, behind, rfl⟩
    change ahead = back ++ rest at behind
    subst behind
    refine ⟨front ++ back, rest, ⟨front, back, known, alsoKnown, rfl⟩, ?_, ?_⟩
    · rw [passed, List.append_assoc]
    · exact Progress.behind_behind start front back rest _
  · rintro ⟨_, rest, ⟨front, back, known, alsoKnown, rfl⟩, passed, rfl⟩
    rw [List.append_assoc] at passed
    refine ⟨start.behind front (back ++ rest), ?_, ?_⟩
    · exact (firstSpells _ _).mpr ⟨front, back ++ rest, known, passed, rfl⟩
    · exact (secondSpells _ _).mpr
        ⟨back, rest, alsoKnown, rfl, (Progress.behind_behind start front back rest _).symm⟩

def letters (text : List Char) : List Expression :=
  text.map fun c => .char (.exactly c.toNat false)

theorem exactly_holds_iff {c other : Char} :
    (CharTest.exactly c.toNat false).holds other = true ↔ other = c := by
  simp only [CharTest.holds, SetItem.holds, Bool.false_eq_true, if_false, beq_iff_eq]
  exact ⟨fun same => Char.ext (UInt32.toNat_inj.mp same), congrArg Char.toNat⟩

theorem spells_letters (text : List Char) :
    (sequenceOf (letters text)).Spells (· = text) := by
  induction text with
  | nil => exact spells_empty
  | cons c text induction =>
      have spells : (sequenceOf ([.char (.exactly c.toNat false)] ++ letters text)).Spells _ :=
        spells_sequenceOf_append (spells_char _) induction
      apply spells.congr
      intro word
      simp [exactly_holds_iff]

def oneOf : List String → Expression
  | [] => .empty
  | [name] => literal name
  | name :: others => .either (literal name) (oneOf others)

theorem spells_oneOf {names : List String} (some : names ≠ []) :
    (oneOf names).Spells (· ∈ names.map String.toList) := by
  induction names with
  | nil => exact absurd rfl some
  | cons name others induction =>
      cases others with
      | nil =>
          apply (spells_letters name.toList).congr
          intro word
          simp
      | cons second rest =>
          apply (spells_either (spells_letters name.toList)
            (induction (List.cons_ne_nil second rest))).congr
          intro word
          simp only [List.map_cons, List.mem_cons]

/-! ## Conditions -/

def Demands (expression : Expression) (holds : Progress → Prop) : Prop :=
  ∀ start stop, expression.Leads start stop ↔ stop = start ∧ holds start

theorem demands_nil : (sequenceOf []).Demands fun _ => True := by
  intro start stop
  constructor
  · intro leads
    cases leads
    exact ⟨rfl, trivial⟩
  · rintro ⟨rfl, -⟩
    exact .empty

theorem demands_singleton {holds : Progress → Prop} (demands : expression.Demands holds) :
    (sequenceOf [expression]).Demands holds :=
  demands

theorem demands_anchor (place : Anchor) : (anchor place).Demands (place.holds · = true) := by
  intro start stop
  constructor
  · intro leads
    cases leads with
    | anchor holds => exact ⟨rfl, holds⟩
  · rintro ⟨rfl, holds⟩
    exact .anchor holds

end Expression

end FormulaLint.Pattern
