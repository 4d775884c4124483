import FormulaLint.Proofs.RuleDrafts
import FormulaLint.Rules.Assertion

/-! Assertions about files that are spelled with the predicate as an argument. The fix takes over
the path and the name of the predicate. All other arguments stand elsewhere in the assertion, and
the fix drops them. -/

namespace FormulaLint

namespace Text

variable {part front middle back : List Char}

theorem infix_of_infix_append (foreign : ∀ c, part.head? = some c → c ∉ front)
    (found : part <:+: front ++ back) : part <:+: back := by
  rcases found with ⟨before, behind, whole⟩
  rw [List.append_assoc] at whole
  rcases List.append_eq_append_iff.mp whole with ⟨shared, listed, equal⟩ | ⟨before, -, equal⟩
  · cases part with
    | nil => exact List.nil_infix
    | cons c rest =>
        cases shared with
        | nil => exact ⟨[], behind, equal⟩
        | cons other shared =>
            have same : c = other := (List.cons.inj equal).1
            exact absurd (by simp [listed, same]) (foreign c rfl)
  · exact ⟨before, behind, by rw [List.append_assoc, equal]⟩

/-- A text that neither begins nor ends with any of the characters. -/
def IsSetOff (part chars : List Char) : Prop :=
  (∀ c ∈ part.head?, c ∉ chars) ∧ ∀ c ∈ part.getLast?, c ∉ chars

theorem IsSetOff.mono {chars others : List Char} (setOff : IsSetOff part chars)
    (fewer : others ⊆ chars) : IsSetOff part others :=
  ⟨fun c first listed => setOff.1 c first (fewer listed),
    fun c last listed => setOff.2 c last (fewer listed)⟩

/-- A text that is set off from what is around a middle stands there only if it stands in the
middle. -/
theorem IsSetOff.infix_iff (setOff : IsSetOff part (front ++ back)) :
    part <:+: front ++ middle ++ back ↔ part <:+: middle := by
  constructor
  · intro found
    rw [List.append_assoc] at found
    have behind : part <:+: middle ++ back := by
      apply infix_of_infix_append _ found
      intro c first listed
      exact setOff.1 c first (List.mem_append_left back listed)
    rw [← List.reverse_infix, List.reverse_append] at behind
    rw [← List.reverse_infix]
    apply infix_of_infix_append _ behind
    intro c last listed
    rw [List.head?_reverse] at last
    exact setOff.2 c last (List.mem_append_right front (List.mem_reverse.mp listed))
  · intro found
    exact found.trans ⟨front, back, rfl⟩

end Text

namespace Node

def enclosed (node : Node) : Node :=
  if node.isParentheses then node.onlyNamed?.getD node else node

private theorem contains_enclosed (node : Node) : node.Contains node.enclosed := by
  unfold enclosed
  split
  · cases only : node.onlyNamed? with
    | none => exact .self
    | some inner => exact contains_of_onlyNamed? only
  · exact .self

end Node

namespace Rules

variable {context : Surroundings} {site : Site} {draft : Draft}
  {assertion argument query receiver predicate spare : Node} {source : String}

/-- An assertion about a file: it asserts its first argument, and the query is that argument or what
it negates. -/
structure AsksOfFile (assertion argument query receiver predicate : Node) : Prop where
  asserts : asserted? assertion = some argument
  negates : argument.negated?.getD argument = query
  asks : query.calls filePredicates .anything = true
  receives : query.receiver? = some receiver
  calls : query.child? "method" = some predicate

def spareArguments (assertion query : Node) : List Node :=
  assertion.arguments.tail ++ query.arguments

def respelled (refutes : Bool) (path predicate : Node) : String :=
  (if refutes then "refute_predicate" else "assert_predicate") ++ " " ++ path.text ++ ", :" ++
    predicate.text

def charsAroundPath : List Char :=
  "assert_predicate refute_predicate, :exist?executable?".toList

theorem exists_of_drafts_assertPredicate (drafted : assertPredicate.Drafts context site draft) :
    ∃ argument query receiver predicate,
      AsksOfFile site.node argument query receiver predicate ∧
      draft.fix =
        if receiver.text = "File" then none
        else some (site.node.replacedBy
          (respelled argument.negated?.isSome receiver.enclosed predicate)) := by
  have member := (Rule.drafts_correcting_iff.mp drafted).2
  split at member
  · cases member
  · next argument asserts =>
      dsimp only at member
      split at member
      · next asks =>
          split at member
          · next receiver name receives named =>
              rcases Option.map_eq_some_iff.mp named with ⟨predicate, calls, rfl⟩
              rw [List.mem_singleton.mp member]
              exact ⟨argument, _, receiver, predicate, ⟨asserts, rfl, asks, receives, calls⟩, rfl⟩
          · cases member
      · cases member

namespace AsksOfFile

variable (asks : AsksOfFile assertion argument query receiver predicate)

include asks

theorem unique {otherArgument otherQuery otherReceiver otherPredicate : Node}
    (others : AsksOfFile assertion otherArgument otherQuery otherReceiver otherPredicate) :
    argument = otherArgument ∧ query = otherQuery ∧ receiver = otherReceiver ∧
      predicate = otherPredicate := by
  have sameArgument := Option.some.inj (asks.asserts.symm.trans others.asserts)
  subst sameArgument
  have sameQuery := asks.negates.symm.trans others.negates
  subst sameQuery
  exact ⟨rfl, rfl, Option.some.inj (asks.receives.symm.trans others.receives),
    Option.some.inj (asks.calls.symm.trans others.calls)⟩

private theorem contains_query : argument.Contains query := by
  rw [← asks.negates]
  cases negates : argument.negated? with
  | none => exact .self
  | some operand => exact Node.contains_of_negated? negates

theorem call : query.label ≠ "element_reference" := by
  have called := asks.asks
  rw [Node.calls, Node.callsOn, Bool.and_eq_true, Bool.and_eq_true, decide_eq_true_eq] at called
  rw [Node.label_of_methodCall called.1.1]
  decide

private theorem predicate_mem : predicate.text ∈ filePredicates := by
  have called := asks.asks
  rw [Node.calls, Bool.and_eq_true, Node.method?, asks.calls] at called
  exact List.contains_iff_mem.mp called.2

theorem firstArgument : assertion.firstArgument? = some argument := by
  have asserts := asks.asserts
  rw [asserted?] at asserts
  split at asserts
  · exact asserts
  · cases asserts

theorem apart_of_mem_tail (laidOut : assertion.LaidOutBelow source)
    (member : spare ∈ assertion.arguments.tail) : spare.Apart argument := by
  rcases List.head?_eq_some_iff.mp asks.firstArgument with ⟨further, listed⟩
  rcases assertion.exists_arguments_sublist with ⟨list, contained, sublist⟩
  rw [listed] at member sublist
  have pair := (List.singleton_sublist.mpr member).cons_cons argument
  exact .inr ((laidOut.of_contains contained).self.stop_le_start (pair.trans sublist))

theorem apart_of_mem_spareArguments (laidOut : assertion.LaidOutBelow source)
    (member : spare ∈ spareArguments assertion query) :
    spare.Apart receiver.enclosed ∧ spare.Apart predicate := by
  have argumentLaid := laidOut.of_contains (Node.contains_of_firstArgument? asks.firstArgument)
  have queryLaid := argumentLaid.of_contains asks.contains_query
  have toReceiver := Node.contains_of_child? asks.receives
  have toPredicate := Node.contains_of_child? asks.calls
  have toPath := receiver.contains_enclosed
  rcases List.mem_append.mp member with further | ofQuery
  · have spareLaid := laidOut.of_contains
      (Node.contains_of_mem_arguments (List.mem_of_mem_tail further))
    have apart := asks.apart_of_mem_tail laidOut further
    exact ⟨spareLaid.apart_of_contains argumentLaid apart .self
        ((asks.contains_query.trans toReceiver).trans toPath),
      spareLaid.apart_of_contains argumentLaid apart .self
        (asks.contains_query.trans toPredicate)⟩
  · rcases Node.exists_list_of_mem_arguments asks.call ofQuery with ⟨list, fills, listed⟩
    have listLaid := queryLaid.of_contains (Node.contains_of_child? fills)
    have fromReceiver : list.Apart receiver :=
      queryLaid.self.apart_of_child? (by decide) fills asks.receives
    have fromPredicate : list.Apart predicate :=
      queryLaid.self.apart_of_child? (by decide) fills asks.calls
    exact ⟨listLaid.apart_of_contains (queryLaid.of_contains toReceiver) fromReceiver listed toPath,
      listLaid.apart_of_contains (queryLaid.of_contains toPredicate) fromPredicate listed .self⟩

end AsksOfFile

theorem around_path_subset (refutes : Bool) (asked : predicate.text ∈ filePredicates) :
    ((if refutes then "refute_predicate" else "assert_predicate") ++ " ").toList ++
      (", :" ++ predicate.text).toList ⊆ charsAroundPath := by
  have words : ∀ word ∈ ["refute_predicate", "assert_predicate"], ∀ name ∈ filePredicates,
      (word ++ " ").toList ++ (", :" ++ name).toList ⊆ charsAroundPath := by
    decide
  have word : (if refutes then "refute_predicate" else "assert_predicate") ∈
      ["refute_predicate", "assert_predicate"] := by
    cases refutes
    all_goals decide
  exact words _ word _ asked

theorem toList_respelled (refutes : Bool) (path predicate : Node) :
    (respelled refutes path predicate).toList =
      ((if refutes then "refute_predicate" else "assert_predicate") ++ " ").toList ++
        path.text.toList ++ (", :" ++ predicate.text).toList := by
  rw [respelled, String.append_assoc, String.toList_append, String.toList_append]

theorem infix_respelled_iff (refutes : Bool) (path : Node) {part : List Char}
    (asked : predicate.text ∈ filePredicates) (setOff : Text.IsSetOff part charsAroundPath) :
    part <:+: (respelled refutes path predicate).toList ↔ part <:+: path.text.toList := by
  rw [toList_respelled]
  exact (setOff.mono (around_path_subset refutes asked)).infix_iff

theorem subset_of_infix_respelled (refutes : Bool) (path : Node) {part : List Char}
    (asked : predicate.text ∈ filePredicates)
    (found : part <:+: (respelled refutes path predicate).toList) :
    part ⊆ charsAroundPath ++ path.text.toList := by
  have around := around_path_subset refutes asked
  intro c member
  have written := found.subset member
  rw [toList_respelled] at written
  rcases List.mem_append.mp written with front | behind
  · rcases List.mem_append.mp front with word | inPath
    · exact List.mem_append_left _ (around (List.mem_append_left _ word))
    · exact List.mem_append_right charsAroundPath inPath
  · exact List.mem_append_left _ (around (List.mem_append_right _ behind))

/-- The fix drops all arguments of an assertion beside the query, and all arguments of the query.
It is offered whatever is asked, unless that is the file class. What it writes is two stretches of
the source and words of its own. The other arguments have nothing in common with the stretches. One
with a character that is neither in the words nor in the path is not in the respelled assertion, and
one that is set off from the words is in it only as far as the path repeats it. -/
theorem assertPredicate_drops_spareArguments (context : Surroundings) (site : Site) (draft : Draft)
    (drafted : assertPredicate.Drafts context site draft)
    (laidOut : site.node.LaidOutBelow context.source) :
    ∃ argument query receiver predicate,
      AsksOfFile site.node argument query receiver predicate ∧
      let path := receiver.enclosed
      let replacement := respelled argument.negated?.isSome path predicate
      draft.fix =
        (if receiver.text = "File" then none else some (site.node.replacedBy replacement)) ∧
      ∀ spare ∈ spareArguments site.node query,
        (spare.Apart path ∧ spare.Apart predicate) ∧
        (spare.text.toList <:+: replacement.toList →
          spare.text.toList ⊆ charsAroundPath ++ path.text.toList) ∧
        (Text.IsSetOff spare.text.toList charsAroundPath →
          (spare.text.toList <:+: replacement.toList ↔
            spare.text.toList <:+: path.text.toList)) := by
  rcases exists_of_drafts_assertPredicate drafted with
    ⟨argument, query, receiver, predicate, asks, fix⟩
  refine ⟨argument, query, receiver, predicate, asks, fix, ?_⟩
  intro spare member
  exact ⟨asks.apart_of_mem_spareArguments laidOut member,
    subset_of_infix_respelled _ _ asks.predicate_mem,
    infix_respelled_iff _ _ asks.predicate_mem⟩

/-! ### Lines with an assertion -/

def pathReceiver : Node :=
  .onLine "identifier" true (some "receiver") 7 8 "a" []

def existPredicate (start : Nat) : Node :=
  .onLine "identifier" true (some "method") start (start + 6) "exist?" []

def pathQuery : Node :=
  .onLine "call" true none 7 15 "a.exist?" [
    pathReceiver, .onLine "." false none 8 9 "." [], existPredicate 9]

def failureMessage : Node :=
  .onLine "string" true none 17 20 "'m'" [
    .onLine "'" false none 17 18 "'" [],
    .onLine "string_content" true none 18 19 "m" [],
    .onLine "'" false none 19 20 "'" []]

def messageAssertion : Node :=
  .onLine "call" true none 0 20 "assert a.exist?, 'm'" [
    .onLine "identifier" true (some "method") 0 6 "assert" [],
    .onLine "argument_list" true (some "arguments") 7 20 "a.exist?, 'm'" [
      pathQuery, .onLine "," false none 15 16 "," [], failureMessage]]

private theorem drafts_messageAssertion :
    ∃ draft, assertPredicate.Drafts (.ofLine "assert a.exist?, 'm'" messageAssertion)
      ⟨messageAssertion, []⟩ draft :=
  ⟨_, Rule.drafts_correcting_iff.mpr ⟨by decide, List.mem_singleton_self _⟩⟩

private theorem asksOfFile_messageAssertion :
    AsksOfFile messageAssertion pathQuery pathQuery pathReceiver (existPredicate 9) :=
  ⟨rfl, rfl, by decide, rfl, rfl⟩

/-- A message is set off by its quotes, and it is dropped. -/
theorem assertPredicate_drops_failureMessage :
    let source := "assert a.exist?, 'm'"
    let replacement := "assert_predicate a, :exist?"
    ∃ draft, assertPredicate.Drafts (.ofLine source messageAssertion) ⟨messageAssertion, []⟩ draft ∧
      draft.fix = some (messageAssertion.replacedBy replacement) ∧
      failureMessage ∈ spareArguments messageAssertion pathQuery ∧
      ¬failureMessage.text.toList <:+: replacement.toList := by
  intro source replacement
  rcases drafts_messageAssertion with ⟨draft, drafted⟩
  rcases assertPredicate_drops_spareArguments _ _ _ drafted (by decide) with
    ⟨argument, query, receiver, predicate, asks, fix, dropped⟩
  rcases asks.unique asksOfFile_messageAssertion with ⟨rfl, rfl, rfl, rfl⟩
  have text : respelled pathQuery.negated?.isSome pathReceiver.enclosed (existPredicate 9) =
      replacement := by decide
  rw [text] at fix dropped
  rw [if_neg (by decide)] at fix
  have spare : failureMessage ∈ spareArguments messageAssertion pathQuery :=
    List.mem_singleton_self _
  have setOff : Text.IsSetOff failureMessage.text.toList charsAroundPath := by
    constructor
    all_goals
      intro c ends
      cases ends
      decide
  refine ⟨draft, drafted, fix, spare, ?_⟩
  intro found
  have repeated := ((dropped failureMessage spare).2.2 setOff).mp found
  exact absurd repeated (by decide)

def folderReceiver : Node :=
  .onLine "constant" true (some "receiver") 7 10 "Dir" []

def folderQuery : Node :=
  .onLine "call" true none 7 23 "Dir.exist?(path)" [
    folderReceiver, .onLine "." false none 10 11 "." [], existPredicate 11,
    .onLine "argument_list" true (some "arguments") 17 23 "(path)" [
      .onLine "(" false none 17 18 "(" [],
      .onLine "identifier" true none 18 22 "path" [],
      .onLine ")" false none 22 23 ")" []]]

def folderAssertion : Node :=
  .onLine "call" true none 0 23 "assert Dir.exist?(path)" [
    .onLine "identifier" true (some "method") 0 6 "assert" [],
    .onLine "argument_list" true (some "arguments") 7 23 "Dir.exist?(path)" [folderQuery]]

private theorem drafts_folderAssertion :
    ∃ draft, assertPredicate.Drafts (.ofLine "assert Dir.exist?(path)" folderAssertion)
      ⟨folderAssertion, []⟩ draft :=
  ⟨_, Rule.drafts_correcting_iff.mpr ⟨by decide, List.mem_singleton_self _⟩⟩

private theorem asksOfFile_folderAssertion :
    AsksOfFile folderAssertion folderQuery folderQuery folderReceiver (existPredicate 11) :=
  ⟨rfl, rfl, by decide, rfl, rfl⟩

/-- The path itself is dropped if it is given to another class than that of files. -/
theorem not_kept_pathOfFolder :
    let source := "assert Dir.exist?(path)"
    let replacement := "assert_predicate Dir, :exist?"
    folderAssertion.LaidOutBelow source ∧
    (∃ draft, assertPredicate.Drafts (.ofLine source folderAssertion) ⟨folderAssertion, []⟩ draft ∧
      draft.fix = some (folderAssertion.replacedBy replacement)) ∧
    ∃ path ∈ folderQuery.arguments, ¬path.text.toList <:+: replacement.toList := by
  intro source replacement
  refine ⟨by decide, ?_, _, List.mem_singleton_self _, by decide +kernel⟩
  rcases drafts_folderAssertion with ⟨draft, drafted⟩
  rcases exists_of_drafts_assertPredicate drafted with
    ⟨argument, query, receiver, predicate, asks, fix⟩
  rcases asks.unique asksOfFile_folderAssertion with ⟨rfl, rfl, rfl, rfl⟩
  have text : respelled folderQuery.negated?.isSome folderReceiver.enclosed (existPredicate 11) =
      replacement := by decide
  rw [text, if_neg (by decide)] at fix
  exact ⟨draft, drafted, fix⟩

end Rules

end FormulaLint
