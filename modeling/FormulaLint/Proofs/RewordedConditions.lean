import FormulaLint.Proofs.RuleDrafts
import FormulaLint.Rules.BuildQuery

/-! Conditions under `unless` that become complementary ones under `if`. The fix is meant to write
one word for another and one query for another. It looks for the keyword by its label, which a body
that is itself a conditional under `unless` has too. -/

namespace FormulaLint

namespace Node

variable {node first keyword condition method : Node} {source query : String}

/-! ## Keywords and queries -/

theorem eq_or_sublist_of_firstLabelled? {labels : List String} {child : Node}
    (found : node.firstLabelled? labels = some first) (member : child ∈ node.children)
    (labelled : child.label ∈ labels) : child = first ∨ [first, child].Sublist node.children := by
  rcases List.find?_eq_some_iff_append.mp found with ⟨-, front, back, listed, others⟩
  rw [listed] at member ⊢
  rcases List.mem_append.mp member with earlier | later
  · have other := others child earlier
    simp [labelled] at other
  · rcases List.mem_cons.mp later with same | behind
    · exact .inl same
    · apply Or.inr
      have pair := (List.singleton_sublist.mpr behind).cons_cons first
      exact pair.trans (List.sublist_append_right front _)

theorem exists_method_of_asksBuild {queries : List String} (asks : node.asksBuild queries = true) :
    ∃ method, node.child? "method" = some method ∧ method.text ∈ queries := by
  rw [asksBuild, calls, Bool.and_eq_true, method?, Option.any_map, Option.any_eq_true] at asks
  rcases asks.2 with ⟨method, fills, asked⟩
  exact ⟨method, fills, List.contains_iff_mem.mp asked⟩

private theorem exists_complement {text : String} (asked : text ∈ Rules.optionQueries) :
    ∃ query, complement? text = some query := by
  simp only [Rules.optionQueries, List.mem_cons, List.not_mem_nil, or_false] at asked
  rcases asked with rfl | rfl
  · exact ⟨"without?", rfl⟩
  · exact ⟨"with?", rfl⟩

theorem LaidOut.start_lt_stop (laid : node.LaidOut source)
    (begins : "unless".toList <+: node.text.toList) : node.start < node.stop := by
  have length := begins.length_le
  have word : "unless".toList.length = 6 := by decide
  rw [word, String.length_toList, laid.length_text] at length
  omega

theorem LaidOut.getElem?_start (laid : node.LaidOut source)
    (begins : "unless".toList <+: node.text.toList) : source.toList[node.start]? = some 'u' := by
  have long := laid.start_lt_stop begins
  have opening : node.text.toList[0]? = some 'u' := by
    rcases begins with ⟨rest, equal⟩
    rw [← equal]
    rfl
  rw [laid.text, Text.toList_slice_natCast, List.getElem?_drop,
    List.getElem?_take_of_lt (by omega)] at opening
  exact opening

/-- A conditional under `unless` as the grammar builds it. The keyword is a token in front of the
condition and behind the body, if the body comes first. Besides it only such a body can have its
label, and what has the label begins with the word. -/
structure UnlessShape (node keyword condition : Node) : Prop where
  fills : node.child? "condition" = some condition
  token : keyword.named = false ∧ keyword.label = "unless"
  listed : [keyword, condition].Sublist node.children
  bodyListed : ∀ body, node.child? "body" = some body → [body, keyword].Sublist node.children
  others : ∀ child ∈ node.children, child.label = "unless" →
    child = keyword ∨ node.child? "body" = some child
  begins : ∀ child ∈ node.children, child.label = "unless" →
    "unless".toList <+: child.text.toList

namespace UnlessShape

variable (shape : node.UnlessShape keyword condition)

include shape

theorem keyword_mem : keyword ∈ node.children :=
  shape.listed.subset List.mem_cons_self

theorem start_lt_stop (laidOut : node.LaidOutBelow source) {child : Node}
    (member : child ∈ node.children) (labelled : child.label = "unless") :
    child.start < child.stop :=
  (laidOut.child member).self.start_lt_stop (shape.begins child member labelled)

/-- The child that is found by the label of the keyword is a body with this label, if there is one,
and otherwise the keyword. -/
theorem firstLabelled?_cases (laidOut : node.LaidOutBelow source)
    (found : node.firstLabelled? ["unless"] = some first) :
    (node.child? "body" = some first ∧ first.label = "unless") ∨
      first = keyword ∧ ∀ body, node.child? "body" = some body → body.label ≠ "unless" := by
  have member : first ∈ node.children := List.mem_of_find?_eq_some found
  have labelled : first.label = "unless" := by
    simpa using List.find?_some found
  rcases shape.others first member labelled with same | inFront
  · apply Or.inr
    refine ⟨same, ?_⟩
    intro body fills another
    have bodyMember : body ∈ node.children := List.mem_of_find?_eq_some fills
    have before := laidOut.self.stop_le_start (shape.bodyListed body fills)
    have bodyLength := shape.start_lt_stop laidOut bodyMember another
    have length := shape.start_lt_stop laidOut member labelled
    rcases eq_or_sublist_of_firstLabelled? found bodyMember (by simp [another]) with equal | listed
    · rw [equal, same] at before bodyLength
      omega
    · have behind := laidOut.self.stop_le_start listed
      rw [same] at behind length
      omega
  · exact .inl ⟨inFront, labelled⟩

theorem found_listed (laidOut : node.LaidOutBelow source)
    (found : node.firstLabelled? ["unless"] = some first) : first.stop ≤ condition.start := by
  have keywordBefore := laidOut.self.stop_le_start shape.listed
  have keywordLaid := (laidOut.child shape.keyword_mem).self.ordered
  rcases shape.firstLabelled?_cases laidOut found with ⟨fills, -⟩ | ⟨rfl, -⟩
  · have bodyBefore := laidOut.self.stop_le_start (shape.bodyListed first fills)
    omega
  · exact keywordBefore

end UnlessShape

/-! ## Reworded sources -/

/-- A source with `if` for a keyword and another query for the method of a condition. -/
def reworded (source : String) (keyword method : Node) (query : String) : String :=
  Text.slice source 0 keyword.start ++ "if" ++ Text.slice source keyword.stop method.start ++
    query ++ Text.slice source method.stop source.length

theorem splice?_rewording (laidOut : condition.LaidOutBelow source)
    (fills : condition.child? "method" = some method)
    (complement : complement? method.text = some query) (before : keyword.stop ≤ condition.start) :
    (Fix.write keyword.start condition.stop
        ("if" ++ Text.slice source keyword.stop condition.start ++
          condition.withComplement)).splice? source =
      some (reworded source keyword method query) := by
  have bounds := laidOut.bounds (contains_of_child? fills)
  have within := laidOut.self.within
  have front : Text.slice source keyword.stop condition.start ++
      Text.slice source condition.start method.start =
        Text.slice source keyword.stop method.start :=
    Text.slice_append_slice source before bounds.1
  have back : Text.slice source method.stop condition.stop ++
      Text.slice source condition.stop source.length =
        Text.slice source method.stop source.length :=
    Text.slice_append_slice source bounds.2.2 within
  rw [Fix.splice?_write, laidOut.withComplement_eq fills complement, reworded, ← front, ← back]
  simp only [String.append_assoc]

private theorem getElem?_reworded_of_lt {position : Nat} (before : position < keyword.start)
    (within : keyword.start ≤ source.length) :
    (reworded source keyword method query).toList[position]? = source.toList[position]? := by
  have front : (Text.slice source 0 keyword.start).toList.length = keyword.start :=
    Text.length_slice_zero within
  simp only [reworded, String.toList_append, List.append_assoc]
  rw [List.getElem?_append_left (by omega), Text.toList_slice_zero,
    List.getElem?_take_of_lt before]

private theorem getElem?_reworded_start (within : keyword.start ≤ source.length) :
    (reworded source keyword method query).toList[keyword.start]? = some 'i' := by
  have front : (Text.slice source 0 keyword.start).toList.length = keyword.start :=
    Text.length_slice_zero within
  simp only [reworded, String.toList_append, List.append_assoc]
  rw [List.getElem?_append_right (by omega), front, Nat.sub_self]
  rfl

theorem reworded_ne (laid : first.LaidOut source)
    (begins : "unless".toList <+: first.text.toList) (before : first.stop ≤ keyword.start)
    (within : keyword.start ≤ source.length) :
    reworded source first method query ≠ reworded source keyword method query := by
  intro same
  have long := laid.start_lt_stop begins
  have kept : (reworded source keyword method query).toList[first.start]? =
      source.toList[first.start]? := getElem?_reworded_of_lt (by omega) within
  rw [← same, getElem?_reworded_start (by omega), laid.getElem?_start begins] at kept
  cases kept

end Node

namespace Rules

variable {context : Surroundings} {site : Site} {draft : Draft}

private theorem exists_of_drafts_unlessQuery (drafted : unlessQuery.Drafts context site draft) :
    ∃ first condition, site.node.firstLabelled? ["unless"] = some first ∧
      site.node.child? "condition" = some condition ∧ condition.asksBuild optionQueries = true ∧
      draft.fix = some (.write first.start condition.stop
        ("if" ++ Text.slice context.source first.stop condition.start ++
          condition.withComplement)) := by
  have member := (Rule.drafts_correcting_iff.mp drafted).2
  split at member
  · split at member
    · next condition first fills found =>
        split at member
        · next asks =>
            rw [List.mem_singleton.mp member]
            exact ⟨first, condition, found, fills, asks, rfl⟩
        · cases member
    · cases member
  · cases member

/-- For every conditional that is reported, the fix alone changes the keyword and the query and
nothing else if and only if the conditional has no body that is itself a conditional under `unless`.
With such a body, the body is what becomes `if`, and the keyword stays. -/
theorem unlessQuery_rewords_iff (context : Surroundings) (site : Site) (draft : Draft)
    (keyword condition : Node) (drafted : unlessQuery.Drafts context site draft)
    (laidOut : site.node.LaidOutBelow context.source)
    (shape : site.node.UnlessShape keyword condition) :
    ∃ method query fix, condition.child? "method" = some method ∧
      Node.complement? method.text = some query ∧ draft.fix = some fix ∧
      (fix.splice? context.source = some (Node.reworded context.source keyword method query) ↔
        ∀ body, site.node.child? "body" = some body → body.label ≠ "unless") ∧
      ∀ body, site.node.child? "body" = some body → body.label = "unless" →
        fix.splice? context.source = some (Node.reworded context.source body method query) := by
  rcases exists_of_drafts_unlessQuery drafted with ⟨first, other, found, fills, asks, fix⟩
  have same : other = condition := Option.some.inj (fills.symm.trans shape.fills)
  subst same
  rcases Node.exists_method_of_asksBuild asks with ⟨method, called, asked⟩
  rcases Node.exists_complement asked with ⟨query, complement⟩
  have conditionLaid := laidOut.of_contains (Node.contains_of_child? fills)
  have spliced := Node.splice?_rewording conditionLaid called complement
    (shape.found_listed laidOut found)
  refine ⟨method, query, _, called, complement, fix, ?_, ?_⟩
  · rw [spliced, Option.some_inj]
    rcases shape.firstLabelled?_cases laidOut found with ⟨inFront, labelled⟩ | ⟨rfl, unlike⟩
    · have member : first ∈ site.node.children := List.mem_of_find?_eq_some found
      have keywordLaid := (laidOut.child shape.keyword_mem).self
      have differs : Node.reworded context.source first method query ≠
          Node.reworded context.source keyword method query :=
        Node.reworded_ne (laidOut.child member).self (shape.begins first member labelled)
          (laidOut.self.stop_le_start (shape.bodyListed first inFront))
          (keywordLaid.ordered.trans keywordLaid.within)
      exact iff_of_false differs fun unlike => unlike first inFront labelled
    · exact iff_of_true rfl unlike
  · intro body inFront labelled
    rcases shape.firstLabelled?_cases laidOut found with ⟨fillsToo, -⟩ | ⟨-, unlike⟩
    · rw [spliced, Option.some.inj (inFront.symm.trans fillsToo)]
    · exact absurd labelled (unlike body inFront)

/-! ### Modifiers -/

def unlessToken (blank : Nat) : Node :=
  .onLine "unless" false none (blank + 1) (blank + 7) "unless" []

def unlessQuestion (blank : Nat) : Node :=
  .onLine "call" true (some "condition") (blank + 8) (blank + 21) "build.with? x" [
    .onLine "identifier" true (some "receiver") (blank + 8) (blank + 13) "build" [],
    .onLine "." false none (blank + 13) (blank + 14) "." [],
    .onLine "identifier" true (some "method") (blank + 14) (blank + 19) "with?" [],
    .onLine "argument_list" true (some "arguments") (blank + 20) (blank + 21) "x" [
      .onLine "identifier" true none (blank + 20) (blank + 21) "x" []]]

def underUnless (source : String) (body : Node) : Node :=
  .onLine "unless_modifier" true none 0 source.length source
    [body, unlessToken body.stop, unlessQuestion body.stop]

private theorem child?_underUnless {source : String} {body : Node}
    (fills : body.field = some "body") :
    (underUnless source body).child? "body" = some body :=
  List.find?_cons_of_pos (beq_iff_eq.mpr fills)

theorem shape_underUnless {source : String} {body : Node} (fills : body.field = some "body")
    (begins : body.label = "unless" → "unless".toList <+: body.text.toList) :
    (underUnless source body).UnlessShape (unlessToken body.stop) (unlessQuestion body.stop) where
  fills := by
    have other : ¬(body.field == some "condition") = true := by simp [fills]
    exact List.find?_cons_of_neg other
  token := ⟨rfl, rfl⟩
  listed := List.sublist_cons_self body _
  bodyListed other found := by
    rw [← Option.some.inj ((child?_underUnless fills).symm.trans found)]
    exact List.sublist_append_left [body, unlessToken body.stop] _
  others child member labelled := by
    rcases List.mem_cons.mp member with rfl | member
    · exact .inr (child?_underUnless fills)
    · rcases List.mem_cons.mp member with rfl | member
      · exact .inl rfl
      · rw [List.mem_singleton.mp member] at labelled
        have question : "call" = "unless" := labelled
        exact absurd question (by decide)
  begins child member labelled := by
    rcases List.mem_cons.mp member with rfl | member
    · exact begins labelled
    · rcases List.mem_cons.mp member with rfl | member
      · exact List.prefix_refl _
      · rw [List.mem_singleton.mp member] at labelled
        have question : "call" = "unless" := labelled
        exact absurd question (by decide)

def plainBody : Node :=
  .onLine "identifier" true (some "body") 0 1 "é" []

/-- The body of a modifier stays as it is. -/
theorem unlessQuery_rewords_plainBody :
    let source := "é unless build.with? x"
    let node := underUnless source plainBody
    ∃ draft fix, unlessQuery.Drafts (Surroundings.ofLine source node) ⟨node, []⟩ draft ∧
      draft.fix = some fix ∧ fix.splice? source = some "é if build.without? x" := by
  intro source node
  have drafted : unlessQuery.Drafts (Surroundings.ofLine source node) ⟨node, []⟩ _ :=
    Rule.drafts_correcting_iff.mpr ⟨by decide, List.mem_singleton_self _⟩
  rcases unlessQuery_rewords_iff _ _ _ _ _ drafted (by decide)
    (shape_underUnless rfl nofun) with ⟨method, query, fix, called, complement, has, rewords, -⟩
  have plain : ∀ body, node.child? "body" = some body → body.label ≠ "unless" := by
    intro body fills
    cases fills
    decide
  have kept := rewords.mpr plain
  cases called
  cases complement
  exact ⟨_, fix, drafted, has, kept.trans (by decide +kernel)⟩

def nestedBody : Node :=
  .onLine "unless" true (some "body") 0 17 "unless a then end" [
    .onLine "unless" false none 0 6 "unless" [],
    .onLine "identifier" true (some "condition") 7 8 "a" [],
    .onLine "then" true (some "consequence") 9 13 "then" [
      .onLine "then" false none 9 13 "then" []],
    .onLine "end" false none 14 17 "end" []]

/-- With such a body the fix loses the body and the keyword stays. -/
theorem not_unlessQuery_rewords_nestedUnless :
    let source := "unless a then end unless build.with? x"
    let node := underUnless source nestedBody
    ∃ draft fix, unlessQuery.Drafts (Surroundings.ofLine source node) ⟨node, []⟩ draft ∧
      node.LaidOutBelow source ∧
      node.UnlessShape (unlessToken nestedBody.stop) (unlessQuestion nestedBody.stop) ∧
      draft.fix = some fix ∧
      fix.splice? source = some "if unless build.without? x" ∧
      fix.splice? source ≠ some "unless a then end if build.without? x" := by
  intro source node
  have drafted : unlessQuery.Drafts (Surroundings.ofLine source node) ⟨node, []⟩ _ :=
    Rule.drafts_correcting_iff.mpr ⟨by decide, List.mem_singleton_self _⟩
  have shape : node.UnlessShape (unlessToken nestedBody.stop) (unlessQuestion nestedBody.stop) :=
    shape_underUnless rfl fun _ => by decide
  refine ⟨_, _, drafted, by decide, shape, rfl, ?_, ?_⟩
  · decide +kernel
  · decide +kernel

end Rules

end FormulaLint
