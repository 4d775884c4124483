import FormulaLint.Pattern.Matching
import Mathlib.Data.List.Forall2

/-! What an expression can do to the state of a match. It passes characters that were ahead, and
remembers what it passes in its groups. A match therefore is a stretch of the text that is searched.
-/

namespace FormulaLint.Pattern

variable {expression : Expression} {start middle stop later : Progress} {next : Continuation}
  {taken others : List Char}

/-! ## Characters that are passed -/

namespace Progress

def behind (start : Progress) (taken rest : List Char) : Progress :=
  { start with before := taken.reverse ++ start.before, rest := rest }

/-- From one state to another some characters are passed, and none is made or lost. -/
structure Passes (start stop : Progress) (taken : List Char) : Prop where
  ahead : start.rest = taken ++ stop.rest
  before : stop.before = taken.reverse ++ start.before

theorem passes_behind {rest : List Char} (ahead : start.rest = taken ++ rest) :
    start.Passes (start.behind taken rest) taken :=
  ⟨ahead, rfl⟩

theorem Passes.none : start.Passes start [] :=
  ⟨rfl, rfl⟩

theorem Passes.append (first : start.Passes middle taken) (second : middle.Passes stop others) :
    start.Passes stop (taken ++ others) where
  ahead := by rw [first.ahead, second.ahead, List.append_assoc]
  before := by rw [second.before, first.before, List.reverse_append, List.append_assoc]

theorem Passes.unique (passes : start.Passes stop taken) (same : start.Passes stop others) :
    taken = others :=
  List.append_cancel_right (passes.ahead.symm.trans same.ahead)

end Progress

/-! ## Ways through an expression -/

namespace Expression

/-- An expression can lead from one state of a match to another. Which of the ways is tried first
and how often something is repeated at most does not matter here. -/
inductive Leads : Expression → Progress → Progress → Prop where
  | empty {start : Progress} : Leads .empty start start
  | char {test : CharTest} {start : Progress} {c : Char} {rest : List Char} :
      start.rest = c :: rest → test.holds c = true →
        Leads (.char test) start (start.behind [c] rest)
  | anchor {place : Anchor} {start : Progress} :
      place.holds start = true → Leads (.anchor place) start start
  | sequence {first second : Expression} {start middle stop : Progress} :
      Leads first start middle → Leads second middle stop →
        Leads (.sequence first second) start stop
  | first {first second : Expression} {start stop : Progress} :
      Leads first start stop → Leads (.either first second) start stop
  | second {first second : Expression} {start stop : Progress} :
      Leads second start stop → Leads (.either first second) start stop
  | done {body : Expression} {most : Option Nat} {greed : Greed} {start : Progress} :
      Leads (.repetition body 0 most greed) start start
  | again {body : Expression} {least : Nat} {most : Option Nat} {greed : Greed}
      {start middle stop : Progress} :
      Leads body start middle → Leads (.repetition body (least - 1) most greed) middle stop →
        Leads (.repetition body least most greed) start stop
  | group {number : Nat} {body : Expression} {start stop : Progress} {taken : List Char} :
      Leads body start stop → start.Passes stop taken →
        Leads (.group number body) start
          { stop with groups := (number, ⟨start.position, taken.reverse⟩) :: stop.groups }
  | recall {number : Nat} {ignoreCase : Bool} {start : Progress} {capture : Capture}
      {taken rest : List Char} :
      start.group? number = some capture → start.rest = taken ++ rest →
        List.Forall₂ (sameRemembered ignoreCase · ·) capture.chars.reverse taken →
          Leads (.recall number ignoreCase) start (start.behind taken rest)
  | ahead {body : Expression} {start stop : Progress} :
      Leads body start stop → Leads (.ahead false body) start { start with groups := stop.groups }
  | notAhead {body : Expression} {start : Progress} : Leads (.ahead true body) start start
  | commit {body : Expression} {start stop : Progress} :
      Leads body start stop → Leads (.commit body) start stop

theorem Leads.exists_passes (leads : expression.Leads start stop) :
    ∃ taken, start.Passes stop taken := by
  induction leads with
  | empty | anchor _ | done | notAhead => exact ⟨[], .none⟩
  | char ahead _ => exact ⟨_, Progress.passes_behind ahead⟩
  | sequence _ _ first second | again _ _ first second =>
      rcases first with ⟨taken, first⟩
      rcases second with ⟨others, second⟩
      exact ⟨_, first.append second⟩
  | first _ induction | second _ induction | commit _ induction => exact induction
  | group _ passes _ => exact ⟨_, passes.ahead, passes.before⟩
  | «recall» _ ahead _ => exact ⟨_, Progress.passes_behind ahead⟩
  | ahead _ _ => exact ⟨[], rfl, rfl⟩

end Expression

/-! ## Matching goes such ways -/

private theorem exists_behind_of_recallFrom {ignoreCase : Bool} {wanted : List Char}
    (made : recallFrom ignoreCase wanted next start = some later) :
    ∃ taken rest, start.rest = taken ++ rest ∧
      List.Forall₂ (sameRemembered ignoreCase · ·) wanted taken ∧
        next (start.behind taken rest) = some later := by
  induction wanted generalizing start with
  | nil => exact ⟨[], start.rest, rfl, .nil, made⟩
  | cons head others induction =>
      rw [recallFrom] at made
      split at made
      · cases made
      · next c rest ahead =>
          split at made
          · next same =>
              rcases induction made with ⟨taken, further, split, remembered, reached⟩
              refine ⟨c :: taken, further, ?_, .cons same remembered, ?_⟩
              · rw [ahead, List.cons_append, ← split]
              · simpa [Progress.behind] using reached
          · cases made

def Expression.Sound (expression : Expression) : Prop :=
  ∀ (next : Continuation) (start later : Progress), expression.run next start = some later →
    ∃ stop, expression.Leads start stop ∧ next stop = some later

theorem Expression.Sound.leads (sound : expression.Sound)
    (made : expression.run some start = some later) : expression.Leads start later := by
  rcases sound _ _ _ made with ⟨stop, leads, reached⟩
  rwa [Option.some.inj reached] at leads

private theorem exists_leads_of_repeatFrom {body : Expression} (sound : body.Sound) {least : Nat}
    {most : Option Nat} {greed : Greed} {fuel count : Nat} {lastStart : Option Nat}
    (made : repeatFrom body.run least most greed next fuel count lastStart start = some later) :
    ∃ stop, (Expression.repetition body (least - count) most greed).Leads start stop ∧
      next stop = some later := by
  induction fuel generalizing count lastStart start with
  | zero => cases made
  | succ fuel induction =>
      -- One more repetition leaves one less to be made.
      have further {lastStart : Option Nat} (made : body.run (repeatFrom body.run least most greed
          next fuel (count + 1) lastStart) start = some later) :
          ∃ stop, (Expression.repetition body (least - count) most greed).Leads start stop ∧
            next stop = some later := by
        rcases sound _ _ _ made with ⟨middle, once, made⟩
        rcases induction made with ⟨stop, others, reached⟩
        rw [← Nat.sub_sub] at others
        exact ⟨stop, .again once others, reached⟩
      rw [repeatFrom] at made
      split at made
      · exact further made
      · next enough =>
          have none : least - count = 0 := by omega
          have stops (reached : next start = some later) :
              ∃ stop, (Expression.repetition body (least - count) most greed).Leads start stop ∧
                next stop = some later :=
            ⟨start, none ▸ .done, reached⟩
          cases greed with
          | most =>
              simp only [firstOf] at made
              split at made
              · next found =>
                  rw [made] at found
                  split at found
                  · exact further found
                  · cases found
              · exact stops made
          | least =>
              simp only [firstOf] at made
              split at made
              · next found => exact stops (found.trans made)
              · split at made
                · exact further made
                · cases made

theorem Expression.sound (expression : Expression) : expression.Sound := by
  induction expression with
  | empty => exact fun _ _ _ made => ⟨_, .empty, made⟩
  | char test =>
      intro next start later made
      rw [run] at made
      split at made
      · cases made
      · next c rest ahead =>
          split at made
          · next holds => exact ⟨_, .char ahead holds, made⟩
          · cases made
  | anchor place =>
      intro next start later made
      rw [run] at made
      split at made
      · next holds => exact ⟨_, .anchor holds, made⟩
      · cases made
  | sequence first second firstSound secondSound =>
      intro next start later made
      rcases firstSound _ _ _ made with ⟨middle, front, made⟩
      rcases secondSound _ _ _ made with ⟨stop, back, reached⟩
      exact ⟨stop, .sequence front back, reached⟩
  | either first second firstSound secondSound =>
      intro next start later made
      rw [run, firstOf] at made
      split at made
      · next found =>
          rcases firstSound _ _ _ (found.trans made) with ⟨stop, leads, reached⟩
          exact ⟨stop, .first leads, reached⟩
      · rcases secondSound _ _ _ made with ⟨stop, leads, reached⟩
        exact ⟨stop, .second leads, reached⟩
  | repetition body least most greed bodySound =>
      intro next start later made
      exact exists_leads_of_repeatFrom bodySound made
  | group number body bodySound =>
      intro next start later made
      rcases bodySound _ _ _ made with ⟨stop, leads, reached⟩
      rcases leads.exists_passes with ⟨taken, passes⟩
      refine ⟨_, .group leads passes, ?_⟩
      have length : stop.before.length - start.before.length = taken.reverse.length := by
        rw [passes.before, List.length_append, Nat.add_sub_cancel]
      simp only [length] at reached
      rwa [passes.before, List.take_left, ← passes.before] at reached
  | «recall» number ignoreCase =>
      intro next start later made
      rw [run] at made
      split at made
      · cases made
      · next capture known =>
          rcases exists_behind_of_recallFrom made with ⟨taken, rest, ahead, same, reached⟩
          exact ⟨_, .recall known ahead same, reached⟩
  | ahead negated body bodySound =>
      intro next start later made
      cases negated with
      | false =>
          rw [run] at made
          split at made
          · cases made
          · next found => exact ⟨_, .ahead (bodySound.leads found), made⟩
      | true =>
          rw [run] at made
          split at made
          · exact ⟨start, .notAhead, made⟩
          · cases made
  | commit body bodySound =>
      intro next start later made
      rw [run] at made
      split at made
      · cases made
      · next found => exact ⟨_, .commit (bodySound.leads found), made⟩

/-! ## Matches -/

private theorem exists_leads_of_searchFrom {before rest : List Char} {found : Match}
    (matched : searchFrom expression before rest = some found) :
    ∃ front back later, rest = front ++ back ∧
      expression.Leads ⟨front.reverse ++ before, back, []⟩ later ∧
        found = .ofProgress ⟨front.reverse ++ before, back, []⟩ later := by
  induction rest generalizing before with
  | nil =>
      rw [searchFrom] at matched
      rcases Option.map_eq_some_iff.mp matched with ⟨later, made, rfl⟩
      exact ⟨[], [], later, rfl, expression.sound.leads made, rfl⟩
  | cons c rest induction =>
      rw [searchFrom] at matched
      split at matched
      · next later made =>
          cases matched
          exact ⟨[], c :: rest, later, rfl, expression.sound.leads made, rfl⟩
      · rcases induction matched with ⟨front, back, later, rfl, leads, equal⟩
        refine ⟨c :: front, back, later, rfl, ?_, ?_⟩
        · simpa using leads
        · simpa using equal

/-- A match cuts the text that is searched in three: the expression leads over the middle part. -/
structure Match.Cuts (found : Match) (expression : Expression) (front taken back : List Char) : Prop
    where
  start : found.start = front.length
  stop : found.stop = front.length + taken.length
  leads : expression.Leads ⟨front.reverse, taken ++ back, []⟩
    ⟨taken.reverse ++ front.reverse, back, found.groups⟩

theorem Expression.exists_cuts_of_search {text : String} {found : Match}
    (matched : expression.search text = some found) :
    ∃ front taken back, text.toList = front ++ (taken ++ back) ∧
      found.Cuts expression front taken back := by
  rcases exists_leads_of_searchFrom matched with ⟨front, rest, later, parted, leads, rfl⟩
  rw [List.append_nil] at leads ⊢
  rcases leads.exists_passes with ⟨taken, ahead, before⟩
  rcases later with ⟨laterBefore, back, groups⟩
  simp only at ahead before
  subst ahead before
  refine ⟨front, taken, back, parted, List.length_reverse, ?_, leads⟩
  simp [Match.ofProgress, Progress.position, Nat.add_comm]

/-- A match in a text does not start behind its end, and ends inside the text. -/
theorem Expression.bounds_of_search {text : String} {found : Match}
    (matched : expression.search text = some found) :
    found.start ≤ found.stop ∧ found.stop ≤ text.length := by
  rcases exists_cuts_of_search matched with ⟨front, taken, back, parted, cuts⟩
  have length := congrArg List.length parted
  rw [String.length_toList, List.length_append, List.length_append] at length
  rw [cuts.start, cuts.stop]
  omega

end FormulaLint.Pattern
