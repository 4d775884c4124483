import FormulaLint.Proofs.ExchangedTokens
import FormulaLint.Proofs.OptionQueries
import FormulaLint.Proofs.RewordedConditions

/-! Queries of the build that are exchanged for their complements. In the text of the call one word
takes the place of another, and everything else is as it was; so exchanging the query of the call
that is so written gives back the text. A negated query becomes its complement. -/

namespace FormulaLint

namespace Node

variable {root node call child method token again : Node} {source image name other : String}

/-! ## Complements -/

theorem complement?_eq_some_iff :
    complement? name = some other ↔
      name = "with?" ∧ other = "without?" ∨ name = "without?" ∧ other = "with?" := by
  constructor
  · intro complement
    unfold complement? at complement
    split at complement
    · exact .inl ⟨rfl, (Option.some.inj complement).symm⟩
    · exact .inr ⟨rfl, (Option.some.inj complement).symm⟩
    · cases complement
  · rintro (⟨rfl, rfl⟩ | ⟨rfl, rfl⟩)
    · rfl
    · rfl

private theorem complement?_complement (complement : complement? name = some other) :
    complement? other = some name := by
  rw [complement?_eq_some_iff] at complement ⊢
  exact complement.symm.imp And.symm And.symm

private theorem length_pos_of_complement (complement : complement? name = some other) :
    0 < name.length := by
  rcases complement?_eq_some_iff.mp complement with ⟨rfl, -⟩ | ⟨rfl, -⟩
  · decide
  · decide

theorem LaidOutBelow.withComplement_of_text (below : again.LaidOutBelow image)
    (fills : again.child? "method" = some token) (complement : complement? token.text = some name)
    {front back : String} (text : again.text = front ++ token.text ++ back)
    (place : token.start - again.start = front.length) :
    again.withComplement = front ++ name ++ back := by
  have member := List.mem_of_find?_eq_some fills
  have bounds := below.bounds (.child .self member)
  have around := below.text_around member
  have length : (Text.slice image again.start token.start).length = front.length := by
    rw [Text.length_slice_natCast (bounds.2.1.trans (bounds.2.2.trans below.self.within)), place]
  rw [text, ← String.toList_inj] at around
  simp only [String.toList_append, List.append_assoc] at around
  simp only [← String.length_toList] at length
  rcases List.append_inj around length.symm with ⟨sameFront, rest⟩
  have sameBack := List.append_cancel_left rest
  rw [String.toList_inj] at sameFront sameBack
  rw [below.withComplement_eq fills complement, sameFront, sameBack]

private theorem withComplement_eq_text
    (unlike : ∀ method, call.child? "method" = some method → complement? method.text = none) :
    call.withComplement = call.text := by
  rw [withComplement]
  cases fills : call.child? "method" with
  | none => rfl
  | some method => simp only [unlike method fills]

private theorem child?_exchanged (field : String) :
    (call.exchanged token name).child? field = (call.child? field).map (besides token name) := by
  rw [child?, child?, exchanged, List.find?_map]
  congr 2
  funext child
  exact congrArg (· == some field) field_besides

theorem text_besides_self (filled : token.start < token.stop) :
    (besides token name token).text = name := by
  rw [besides, if_neg (by omega)]

theorem LaidOutBelow.withComplement_restored (below : call.LaidOutBelow source)
    (fills : call.child? "method" = some method)
    (complement : complement? method.text = some other) (againBelow : again.LaidOutBelow image)
    (text : again.text = call.withComplement) (againFills : again.child? "method" = some token)
    (word : token.text = other) (place : token.start - again.start = method.start - call.start) :
    again.withComplement = call.text := by
  have member := List.mem_of_find?_eq_some fills
  have bounds := below.bounds (.child .self member)
  have front : (Text.slice source call.start method.start).length = method.start - call.start :=
    Text.length_slice_natCast (bounds.2.1.trans (bounds.2.2.trans below.self.within))
  have written := text.trans (below.withComplement_eq fills complement)
  rw [← word] at written
  rw [below.text_around member]
  exact againBelow.withComplement_of_text againFills
    (complement?_complement (word ▸ complement)) written (place.trans front.symm)

/-- What exchanging the query of a call in a source comes to. The word is exchanged between what
stands in front of it and what stands behind it, every other child is there as it was, and however
the call that is so written is read, exchanging its query gives back the text. -/
structure ExchangesQuery (source : String) (call method : Node) (other : String) : Prop where
  written : call.text = Text.slice source call.start method.start ++ method.text ++
    Text.slice source method.stop call.stop
  complemented : call.withComplement = Text.slice source call.start method.start ++ other ++
    Text.slice source method.stop call.stop
  kept : ∀ child ∈ call.children, child = method ∨
    let carry := Text.carry method.start method.stop other.length
    child.text = Text.slice call.withComplement (carry child.start - call.start)
      (carry child.stop - call.start)
  standing : (call.exchanged method other).LaidOutBelow
    (Text.exchange source method.start method.stop other)
  text_exchanged : (call.exchanged method other).text = call.withComplement
  exchanged_again : (call.exchanged method other).withComplement = call.text
  restored : ∀ (again token : Node) (image : String), again.LaidOutBelow image →
    again.text = call.withComplement → again.child? "method" = some token → token.text = other →
    token.start - again.start = method.start - call.start → again.withComplement = call.text

private theorem exchangesQuery (below : call.LaidOutBelow source)
    (fills : call.child? "method" = some method)
    (complement : complement? method.text = some other) :
    ExchangesQuery source call method other := by
  have member := List.mem_of_find?_eq_some fills
  have bounds := below.bounds (.child .self member)
  have filled : method.start < method.stop := by
    have length := length_pos_of_complement complement
    rw [(below.child member).self.length_text] at length
    omega
  have standing : (call.exchanged method other).LaidOutBelow _ :=
    laidOutBelow_exchanged below member filled
  have text : (call.exchanged method other).text = call.withComplement := by
    rw [text_exchanged below.self filled bounds.1 bounds.2.2,
      below.withComplement_eq fills complement]
  refine ⟨below.text_around member, below.withComplement_eq fills complement, ?_, standing, text, ?_,
    fun again token image => below.withComplement_restored fills complement⟩
  · intro child listed
    by_cases outside : child.stop ≤ method.start ∨ method.stop ≤ child.start
    · apply Or.inr
      have image : besides method other child ∈ (call.exchanged method other).children :=
        List.mem_map_of_mem listed
      have cut := standing.text_child image
      rw [start_besides, stop_besides, text, besides, if_pos outside, text_relocated] at cut
      exact cut
    · exact .inl ((below.self.beside listed member).resolve_right outside)
  · refine below.withComplement_restored fills complement standing text ?_
      (text_besides_self filled) ?_
    · rw [child?_exchanged, fills, Option.map_some]
    · rw [start_besides, Text.carry_of_lt filled]
      rfl

/-! ## Negations -/

/-- A node is another one with parentheses around it, each around a single statement. -/
inductive Wraps : Node → Node → Prop
  | bare (node : Node) : Wraps node node
  | around {outer inner node : Node} (parentheses : outer.label = "parenthesized_statements")
      (only : outer.namedChildren = [inner]) (wraps : Wraps inner node) : Wraps outer node

private theorem unwrappedNamed_eq {outer inner : Node} {nodes : List Node}
    (only : nodes.filter (·.named) = [inner]) : unwrappedNamed outer nodes = inner.unwrapped := by
  induction nodes with
  | nil => cases only
  | cons child rest induction =>
      rw [unwrappedNamed]
      split
      · next named =>
          rw [List.filter_cons_of_pos named] at only
          rw [(List.cons.inj only).1]
      · next unnamed =>
          rw [List.filter_cons_of_neg unnamed] at only
          exact induction only

theorem onlyNamed?_eq_some_iff {inner : Node} :
    node.onlyNamed? = some inner ↔ node.namedChildren = [inner] := by
  rw [onlyNamed?]
  cases node.namedChildren with
  | nil => simp
  | cons first rest => cases rest <;> simp

theorem unwrapped_eq_of_only {outer inner : Node}
    (parentheses : outer.label = "parenthesized_statements")
    (only : outer.namedChildren = [inner]) : outer.unwrapped = inner.unwrapped := by
  have single := onlyNamed?_eq_some_iff.mpr only
  have around : (outer.isParentheses && outer.onlyNamed?.isSome) = true := by
    rw [isParentheses, parentheses, single]
    rfl
  rcases outer with ⟨label, named, field, extent, text, children⟩
  rw [unwrapped]
  exact (if_pos around).trans (unwrappedNamed_eq only)

theorem unwrapped_eq_self
    (bare : node.label = "parenthesized_statements" → node.onlyNamed? = none) :
    node.unwrapped = node := by
  have notAround : ¬(node.isParentheses && node.onlyNamed?.isSome) = true := by
    rw [Bool.and_eq_true, isParentheses, beq_iff_eq]
    rintro ⟨parentheses, single⟩
    rw [bare parentheses] at single
    cases single
  rcases node with ⟨label, named, field, extent, text, children⟩
  rw [unwrapped]
  exact if_neg notAround

theorem Wraps.unwrapped_eq {outer : Node} (wraps : outer.Wraps node)
    (bare : node.label ≠ "parenthesized_statements") : outer.unwrapped = node := by
  induction wraps with
  | bare => exact unwrapped_eq_self fun parentheses => absurd parentheses bare
  | around parentheses only _ induction =>
      rw [unwrapped_eq_of_only parentheses only, induction bare]

mutual

theorem wraps_unwrapped : ∀ node : Node, node.Wraps node.unwrapped
  | ⟨label, named, field, extent, text, children⟩ => by
      let node : Node := ⟨label, named, field, extent, text, children⟩
      change node.Wraps node.unwrapped
      cases single : node.onlyNamed? with
      | none =>
          rw [unwrapped_eq_self fun _ => single]
          exact .bare node
      | some inner =>
          by_cases parentheses : node.label = "parenthesized_statements"
          · have only := onlyNamed?_eq_some_iff.mp single
            have member : inner ∈ node.namedChildren := only ▸ List.mem_singleton_self inner
            rw [unwrapped_eq_of_only parentheses only]
            exact .around parentheses only
              (wraps_unwrapped_of_mem children inner (List.mem_of_mem_filter member))
          · rw [unwrapped_eq_self fun same => absurd same parentheses]
            exact .bare node

theorem wraps_unwrapped_of_mem : ∀ nodes : List Node, ∀ node ∈ nodes, node.Wraps node.unwrapped
  | [] => List.forall_mem_nil _
  | node :: rest => List.forall_mem_cons.mpr ⟨wraps_unwrapped node, wraps_unwrapped_of_mem rest⟩

end

/-- An expression that negates a query, perhaps in parentheses. -/
structure Negates (node query : Node) : Prop where
  labelled : node.label = "unary"
  named : node.named = true
  operator : ∃ operator, node.child? "operator" = some operator ∧
    (operator.text = "!" ∨ operator.text = "not")
  operand : ∃ operand, node.child? "operand" = some operand ∧ operand.Wraps query

theorem negated?_eq_some_iff {query : Node} (bare : query.label ≠ "parenthesized_statements") :
    node.negated? = some query ↔
      node.label = "unary" ∧
        (∃ operator, node.child? "operator" = some operator ∧
          (operator.text = "!" ∨ operator.text = "not")) ∧
        ∃ operand, node.child? "operand" = some operand ∧ operand.Wraps query := by
  rw [negated?]
  constructor
  · intro negates
    split at negates
    · cases negates
    · next labelled =>
        split at negates
        · next operator fills =>
            split at negates
            · next negation =>
                simp only [Bool.or_eq_true, decide_eq_true_eq] at negation
                rcases Option.map_eq_some_iff.mp negates with ⟨operand, operandFills, rfl⟩
                exact ⟨not_not.mp labelled, ⟨operator, fills, negation⟩, operand, operandFills,
                  wraps_unwrapped operand⟩
            · cases negates
        · cases negates
  · rintro ⟨labelled, ⟨operator, fills, negation⟩, operand, operandFills, wraps⟩
    have negates : (decide (operator.text = "!") || decide (operator.text = "not")) = true := by
      simpa only [Bool.or_eq_true, decide_eq_true_eq] using negation
    rw [if_neg (not_not.mpr labelled), fills]
    dsimp only
    rw [if_pos negates, operandFills, Option.map_some, wraps.unwrapped_eq bare]

theorem Negates.negated?_eq {query : Node} (negates : node.Negates query)
    (bare : query.label ≠ "parenthesized_statements") : node.negated? = some query :=
  (negated?_eq_some_iff bare).mpr ⟨negates.labelled, negates.operator, negates.operand⟩

end Node

namespace Rules

variable {context : Surroundings} {site : Site} {draft : Draft}

def negationDraft (node query : Node) (name other : String) : Draft :=
  node.report ("Don't negate 'build." ++ name ++ "': use 'build." ++ other ++ "'")
    (some (node.replacedBy query.withComplement))

private theorem complement?_of_query {name : String} (asked : name ∈ optionQueries) :
    Node.complement? name = some (if name = "with?" then "without?" else "with?") := by
  simp only [optionQueries, List.mem_cons, List.not_mem_nil, or_false] at asked
  rcases asked with rfl | rfl
  · rfl
  · rfl

private theorem mem_optionQueries_of_complement? {name other : String}
    (complement : Node.complement? name = some other) : name ∈ optionQueries := by
  rcases Node.complement?_eq_some_iff.mp complement with ⟨rfl, -⟩ | ⟨rfl, -⟩
  · decide
  · decide

theorem bare_of_callsOn {query : Node} {receiver : ReceiverDemand}
    (called : query.callsOn receiver = true) : query.label ≠ "parenthesized_statements" := by
  rw [Node.callsOn, Bool.and_eq_true, decide_eq_true_eq] at called
  rw [Node.label_of_methodCall called.1]
  decide

/-- The rule reports the negations of queries of the build and nothing else. -/
theorem drafts_negatedQuery_iff :
    negatedQuery.Drafts context site draft ↔
      ∃ query method other, site.node.Negates query ∧
        query.callsOn (.written "build") = true ∧ query.child? "method" = some method ∧
        Node.complement? method.text = some other ∧
        draft = negationDraft site.node query method.text other := by
  rw [negatedQuery, Rule.drafts_correcting_iff]
  constructor
  · rintro ⟨kind, member⟩
    have named : site.node.named = true := by
      by_contra unnamed
      rw [Node.kind, if_neg unnamed] at kind
      cases kind
    split at member
    · cases member
    · next query negated =>
        split at member
        · next asks =>
            have called := (Node.asksBuild_iff.mp asks).1
            rcases Node.exists_method_of_asksBuild asks with ⟨method, fills, asked⟩
            rcases (Node.negated?_eq_some_iff (bare_of_callsOn called)).mp negated with
              ⟨labelled, operator, operand⟩
            refine ⟨query, method, _, ⟨labelled, named, operator, operand⟩, called, fills,
              complement?_of_query asked, ?_⟩
            rw [List.mem_singleton.mp member, Node.method?, fills]
            rfl
        · cases member
  · rintro ⟨query, method, other, negates, called, fills, complement, rfl⟩
    have asked := mem_optionQueries_of_complement? complement
    have asks : query.asksBuild optionQueries = true :=
      Node.asksBuild_iff.mpr ⟨called, method.text, asked, by rw [Node.method?, fills]; rfl⟩
    have negated := negates.negated?_eq (bare_of_callsOn called)
    constructor
    · rw [Node.kind, if_pos negates.named, negates.labelled]
      decide
    · rw [complement?_of_query asked] at complement
      cases complement
      rw [negated]
      dsimp only
      rw [if_pos asks, Node.method?, fills]
      exact List.mem_singleton_self _

private theorem drafts_negatedQuery_of_negates {query method : Node} {other : String}
    (negates : site.node.Negates query) (called : query.callsOn (.written "build") = true)
    (fills : query.child? "method" = some method)
    (complement : Node.complement? method.text = some other) :
    negatedQuery.Drafts context site draft ↔
      draft = negationDraft site.node query method.text other := by
  rw [drafts_negatedQuery_iff]
  constructor
  · rintro ⟨found, token, name, foundNegates, foundCalled, foundFills, foundComplement, rfl⟩
    have negated := negates.negated?_eq (bare_of_callsOn called)
    have foundNegated := foundNegates.negated?_eq (bare_of_callsOn foundCalled)
    cases negated.symm.trans foundNegated
    cases fills.symm.trans foundFills
    cases complement.symm.trans foundComplement
    rfl
  · rintro rfl
    exact ⟨query, method, other, negates, called, fills, complement, rfl⟩

/-- In a tree that is laid out, the complement of a query exchanges one word, and exchanging the
query again gives back the text; other calls are left as they are. A negated query of the build is
reported once, and the fix alone writes the complement in the place of the negation. -/
theorem negatedQuery_complements (root : Node) (source : String)
    (below : root.LaidOutBelow source) :
    (∀ call method other, root.Contains call → call.child? "method" = some method →
      Node.complement? method.text = some other →
        Node.ExchangesQuery source call method other) ∧
    (∀ call : Node, (∀ method, call.child? "method" = some method →
      Node.complement? method.text = none) → call.withComplement = call.text) ∧
    ∀ (context : Surroundings) (site : Site) (query method : Node) (other : String),
      root.Contains site.node → site.node.Negates query →
      query.callsOn (.written "build") = true → query.child? "method" = some method →
      Node.complement? method.text = some other →
        (∀ draft, negatedQuery.Drafts context site draft ↔
          draft = negationDraft site.node query method.text other) ∧
        (site.node.replacedBy query.withComplement).splice? source =
          some (Text.slice source 0 site.node.start ++
            (Text.slice source query.start method.start ++ other ++
              Text.slice source method.stop query.stop) ++
            Text.slice source site.node.stop source.length) := by
  refine ⟨?_, fun call => Node.withComplement_eq_text, ?_⟩
  · intro call method other contained fills complement
    exact Node.exchangesQuery (below.of_contains contained) fills complement
  · intro context site query method other contained negates called fills complement
    refine ⟨fun draft => drafts_negatedQuery_of_negates negates called fills complement, ?_⟩
    have negated := negates.negated?_eq (bare_of_callsOn called)
    have queryBelow := below.of_contains (contained.trans (Node.contains_of_negated? negated))
    rw [← queryBelow.withComplement_eq fills complement]
    exact Fix.splice?_write source query.withComplement site.node.start site.node.stop

/-! ### A query whose argument has its name in it -/

def echoedQuery (place : Nat) (name : String) : Node :=
  let behind := place + 6 + name.length
  .onLine "call" true none place (behind + 10) ("build." ++ name ++ " \"with? é\"") [
    .onLine "identifier" true (some "receiver") place (place + 5) "build" [],
    .onLine "." false none (place + 5) (place + 6) "." [],
    .onLine "identifier" true (some "method") (place + 6) behind name [],
    .onLine "argument_list" true (some "arguments") (behind + 1) (behind + 10) "\"with? é\"" [
      .onLine "string" true none (behind + 1) (behind + 10) "\"with? é\"" [
        .onLine "\"" false none (behind + 1) (behind + 2) "\"" [],
        .onLine "string_content" true none (behind + 2) (behind + 9) "with? é" [],
        .onLine "\"" false none (behind + 9) (behind + 10) "\"" []]]]

def echoedNegation : Node :=
  .onLine "unary" true none 2 28 "!((build.with? \"with? é\"))" [
    .onLine "!" false (some "operator") 2 3 "!" [],
    .onLine "parenthesized_statements" true (some "operand") 3 28
      "((build.with? \"with? é\"))" [
      .onLine "(" false none 3 4 "(" [],
      .onLine "parenthesized_statements" true none 4 27 "(build.with? \"with? é\")" [
        .onLine "(" false none 4 5 "(" [],
        echoedQuery 5 "with?",
        .onLine ")" false none 26 27 ")" []],
      .onLine ")" false none 27 28 ")" []]]

private theorem negates_echoedNegation : echoedNegation.Negates (echoedQuery 5 "with?") where
  labelled := rfl
  named := rfl
  operator := ⟨_, rfl, .inl rfl⟩
  operand := ⟨_, rfl, .around rfl rfl (.around rfl rfl (.bare _))⟩

/-- The word in the argument stays, and a character of two bytes counts once. -/
theorem negatedQuery_complements_echoed :
    let source := "é !((build.with? \"with? é\"))"
    let context := Surroundings.ofLine source echoedNegation
    (∃ draft fix, negatedQuery.Drafts context ⟨echoedNegation, []⟩ draft ∧
        draft.fix = some fix ∧ fix.splice? source = some "é build.without? \"with? é\"") ∧
      (echoedQuery 0 "without?").withComplement = "build.with? \"with? é\"" := by
  intro source context
  have below : echoedNegation.LaidOutBelow source := by decide +kernel
  rcases negatedQuery_complements echoedNegation source below with ⟨exchanges, -, replaces⟩
  constructor
  · rcases replaces context ⟨echoedNegation, []⟩ _ _ _ .self negates_echoedNegation (by decide)
      rfl rfl with ⟨drafts, spliced⟩
    exact ⟨_, _, (drafts _).mpr rfl, rfl, spliced.trans (by decide +kernel)⟩
  · have contained : echoedNegation.Contains (echoedQuery 5 "with?") :=
      Node.contains_of_negated? (negates_echoedNegation.negated?_eq (by decide))
    have exchange := exchanges (echoedQuery 5 "with?") _ _ contained rfl rfl
    exact exchange.restored (echoedQuery 0 "without?") _ "build.without? \"with? é\""
      (by decide +kernel) (by decide +kernel) rfl rfl (by decide)

end Rules

end FormulaLint
