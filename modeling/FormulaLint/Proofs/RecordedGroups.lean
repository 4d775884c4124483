import FormulaLint.Proofs.MatchBounds

/-! Expressions of which it can be read off what their matches are: those that match at the start of
a text only, and those that leave in a group a part of what they match. -/

namespace FormulaLint.Pattern

variable {expression : Expression} {start middle stop : Progress} {number : Nat}
  {taken : List Char}

/-! ## Groups that are remembered -/

theorem Progress.group?_remembered {capture : Capture} :
    ({ stop with groups := (number, capture) :: stop.groups } : Progress).group? number =
      some capture :=
  List.lookup_cons_self

theorem Progress.group?_other {other : Nat} {capture : Capture} (different : other ≠ number) :
    ({ stop with groups := (other, capture) :: stop.groups } : Progress).group? number =
      stop.group? number := by
  have unequal : (number == other) = false := beq_eq_false_iff_ne.mpr different.symm
  rw [group?, List.lookup_cons, unequal, group?]

/-- On the way from one state to another, characters that are passed are remembered last under a
number. -/
def Progress.Records (start stop : Progress) (number : Nat) : Prop :=
  ∃ capture taken, stop.group? number = some capture ∧ start.Passes stop taken ∧
    capture.chars ≠ [] ∧ capture.chars.reverse <:+: taken

theorem Progress.Records.before {others : List Char} (records : middle.Records stop number)
    (passes : start.Passes middle others) : start.Records stop number := by
  rcases records with ⟨capture, taken, found, more, nonempty, part⟩
  exact ⟨capture, others ++ taken, found, passes.append more, nonempty,
    part.trans (List.suffix_append others taken).isInfix⟩

theorem Progress.Records.behind {others : List Char} (records : start.Records middle number)
    (passes : middle.Passes stop others) (kept : stop.group? number = middle.group? number) :
    start.Records stop number := by
  rcases records with ⟨capture, taken, found, first, nonempty, part⟩
  exact ⟨capture, taken ++ others, kept.trans found, first.append passes, nonempty,
    part.trans (List.prefix_append taken others).isInfix⟩

namespace Expression

/-! ## What can be read off an expression -/

def startsText : Expression → Bool
  | .anchor .textStart => true
  | .sequence first _ => first.startsText
  | .either first second => first.startsText && second.startsText
  | .repetition body least _ _ => 0 < least && body.startsText
  | .group _ body | .ahead false body | .commit body => body.startsText
  | _ => false

def passesSome : Expression → Bool
  | .char _ => true
  | .sequence first second => first.passesSome || second.passesSome
  | .either first second => first.passesSome && second.passesSome
  | .repetition body least _ _ => 0 < least && body.passesSome
  | .group _ body | .commit body => body.passesSome
  | _ => false

def remembers (number : Nat) : Expression → Bool
  | .group other body => other = number || body.remembers number
  | .sequence first second | .either first second =>
      first.remembers number || second.remembers number
  | .repetition body _ _ _ | .ahead false body | .commit body => body.remembers number
  | _ => false

/-- Whether it can be seen that each way through an expression remembers under a number some
characters that it passes. Repetitions are not looked into. -/
def records (number : Nat) : Expression → Bool
  | .group other body => if other = number then body.passesSome else body.records number
  | .sequence first second =>
      second.records number || (first.records number && !second.remembers number)
  | .either first second => first.records number && second.records number
  | .commit body => body.records number
  | _ => false

/-! ## Ways through such expressions -/

theorem Leads.before_eq_nil (leads : expression.Leads start stop)
    (starts : expression.startsText = true) : start.before = [] := by
  induction leads with
  | empty | char _ _ | done | «recall» _ _ _ | notAhead => simp [startsText] at starts
  | @anchor place start holds =>
      cases place with
      | textStart => simpa [Anchor.holds] using holds
      | _ => simp [startsText] at starts
  | sequence _ _ induction _ | group _ _ induction | ahead _ induction | commit _ induction =>
      exact induction starts
  | first _ induction =>
      rw [startsText, Bool.and_eq_true] at starts
      exact induction starts.1
  | second _ induction =>
      rw [startsText, Bool.and_eq_true] at starts
      exact induction starts.2
  | again _ _ induction _ =>
      rw [startsText, Bool.and_eq_true] at starts
      exact induction starts.2

theorem Leads.exists_passes_some (leads : expression.Leads start stop)
    (some : expression.passesSome = true) : ∃ taken, start.Passes stop taken ∧ taken ≠ [] := by
  induction leads with
  | empty | anchor _ | done | «recall» _ _ _ | ahead _ _ | notAhead => simp [passesSome] at some
  | char ahead _ => exact ⟨_, Progress.passes_behind ahead, List.cons_ne_nil _ _⟩
  | sequence front back first second =>
      rw [passesSome, Bool.or_eq_true] at some
      rcases some with some | some
      · rcases first some with ⟨taken, passes, nonempty⟩
        rcases back.exists_passes with ⟨others, more⟩
        exact ⟨_, passes.append more, by simp [nonempty]⟩
      · rcases front.exists_passes with ⟨others, passes⟩
        rcases second some with ⟨taken, more, nonempty⟩
        exact ⟨_, passes.append more, by simp [nonempty]⟩
  | first _ induction =>
      rw [passesSome, Bool.and_eq_true] at some
      exact induction some.1
  | second _ induction =>
      rw [passesSome, Bool.and_eq_true] at some
      exact induction some.2
  | again _ others induction _ =>
      rw [passesSome, Bool.and_eq_true] at some
      rcases induction some.2 with ⟨taken, passes, nonempty⟩
      rcases others.exists_passes with ⟨further, more⟩
      exact ⟨_, passes.append more, by simp [nonempty]⟩
  | group _ _ induction =>
      rcases induction some with ⟨taken, passes, nonempty⟩
      exact ⟨taken, ⟨passes.ahead, passes.before⟩, nonempty⟩
  | commit _ induction => exact induction some

theorem Leads.group?_eq (leads : expression.Leads start stop)
    (unset : expression.remembers number = false) : stop.group? number = start.group? number := by
  induction leads with
  | empty | char _ _ | anchor _ | done | «recall» _ _ _ | notAhead => rfl
  | sequence _ _ first second =>
      rw [remembers, Bool.or_eq_false_iff] at unset
      exact (second unset.2).trans (first unset.1)
  | first _ induction =>
      rw [remembers, Bool.or_eq_false_iff] at unset
      exact induction unset.1
  | second _ induction =>
      rw [remembers, Bool.or_eq_false_iff] at unset
      exact induction unset.2
  | again _ _ first second => exact (second unset).trans (first unset)
  | group _ _ induction =>
      rw [remembers, Bool.or_eq_false_iff] at unset
      rw [← induction unset.2]
      exact Progress.group?_other (of_decide_eq_false unset.1)
  | ahead _ induction => exact induction unset
  | commit _ induction => exact induction unset

theorem Leads.records (leads : expression.Leads start stop)
    (records : expression.records number = true) : start.Records stop number := by
  induction leads with
  | empty | char _ _ | anchor _ | done | again _ _ _ _ | «recall» _ _ _ | ahead _ _ | notAhead =>
      simp [Expression.records] at records
  | sequence front back first second =>
      rw [Expression.records, Bool.or_eq_true, Bool.and_eq_true, Bool.not_eq_true'] at records
      rcases records with records | ⟨records, kept⟩
      · rcases front.exists_passes with ⟨others, passes⟩
        exact (second records).before passes
      · rcases back.exists_passes with ⟨others, passes⟩
        exact (first records).behind passes (back.group?_eq kept)
  | first _ induction =>
      rw [Expression.records, Bool.and_eq_true] at records
      exact induction records.1
  | second _ induction =>
      rw [Expression.records, Bool.and_eq_true] at records
      exact induction records.2
  | group leads passes induction =>
      rw [Expression.records] at records
      split at records
      · next same =>
          subst same
          rcases leads.exists_passes_some records with ⟨others, more, nonempty⟩
          rw [more.unique passes] at nonempty
          refine ⟨_, _, Progress.group?_remembered, ⟨passes.ahead, passes.before⟩, ?_, ?_⟩
          · simpa using nonempty
          · simp
      · next different =>
          rcases induction records with ⟨capture, taken, found, more, nonempty, part⟩
          exact ⟨capture, taken, (Progress.group?_other different).trans found,
            ⟨more.ahead, more.before⟩, nonempty, part⟩
  | commit _ induction => exact induction records

end Expression

end FormulaLint.Pattern
