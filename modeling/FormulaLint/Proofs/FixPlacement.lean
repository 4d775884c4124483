import FormulaLint.Proofs.LaidOut
import FormulaLint.Tree.Negation
import FormulaLint.Tree.Statement

/-! Where fixes lie. In a tree that is laid out in a text, what is computed from the ends of nodes,
from the content of a literal or from the lines around a statement is a stretch of the text; and
fixes that are such stretches are put in one after another without leaving the text. -/

namespace FormulaLint

theorem Fix.within_write {source text : String} {start stop : Nat} (ordered : start ≤ stop)
    (back : stop ≤ source.length) : (Fix.write start stop text).Within source :=
  ⟨Int.natCast_nonneg start, Int.ofNat_le.mpr ordered, Int.ofNat_le.mpr back⟩

/-! ## Nodes of a laid out tree -/

namespace Node

variable {node inner left right : Node} {source : String}

theorem contains_of_child? {field : String} (fills : node.child? field = some inner) :
    node.Contains inner :=
  .child .self (List.mem_of_find?_eq_some fills)

theorem contains_of_mem_namedChildren (member : inner ∈ node.namedChildren) :
    node.Contains inner :=
  .child .self (List.mem_of_mem_filter member)

theorem label_of_methodCall (kind : node.kind = .methodCall) : node.label = "call" := by
  rw [Node.kind] at kind
  split at kind
  · rw [SyntaxKind.ofLabel] at kind
    cases found : SyntaxKind.all.find? fun kind => kind.labels.contains node.label with
    | none =>
        rw [found] at kind
        cases kind
    | some listed =>
        rw [found, Option.getD_some] at kind
        subst kind
        have listed := List.find?_some found
        exact List.mem_singleton.mp (List.contains_iff_mem.mp listed)
  · cases kind

theorem arguments_of_call (call : node.label ≠ "element_reference") :
    node.arguments = [] ∨
      ∃ list, node.child? "arguments" = some list ∧ node.arguments.Sublist list.children := by
  rw [arguments, if_neg call]
  cases fills : node.child? "arguments" with
  | none => exact .inl rfl
  | some list => exact .inr ⟨list, rfl, List.filter_sublist⟩

theorem exists_arguments_sublist (node : Node) :
    ∃ list, node.Contains list ∧ node.arguments.Sublist list.children := by
  by_cases indices : node.label = "element_reference"
  · refine ⟨node, .self, ?_⟩
    rw [arguments, if_pos indices]
    exact List.filter_sublist.trans List.eraseP_sublist
  · rcases arguments_of_call indices with none | ⟨list, fills, listed⟩
    · exact ⟨node, .self, none ▸ List.nil_sublist _⟩
    · exact ⟨list, contains_of_child? fills, listed⟩

theorem contains_of_mem_arguments (member : inner ∈ node.arguments) : node.Contains inner := by
  rcases node.exists_arguments_sublist with ⟨list, contained, sublist⟩
  exact .child contained (sublist.subset member)

theorem contains_of_firstArgument? (first : node.firstArgument? = some inner) :
    node.Contains inner :=
  contains_of_mem_arguments (List.mem_of_head? first)

theorem exists_list_of_mem_arguments (call : node.label ≠ "element_reference")
    (member : inner ∈ node.arguments) :
    ∃ list, node.child? "arguments" = some list ∧ list.Contains inner := by
  rcases arguments_of_call call with none | ⟨list, fills, listed⟩
  · rw [none] at member
    cases member
  · exact ⟨list, fills, .child .self (listed.subset member)⟩

theorem contains_of_onlyNamed? (only : node.onlyNamed? = some inner) : node.Contains inner := by
  rw [onlyNamed?] at only
  split at only
  · next listed =>
      cases only
      exact contains_of_mem_namedChildren (listed ▸ List.mem_singleton_self inner)
  · cases only

mutual

theorem contains_unwrapped : ∀ node : Node, node.Contains node.unwrapped
  | ⟨label, named, field, extent, text, children⟩ => by
      rw [unwrapped]
      split
      · let node : Node := ⟨label, named, field, extent, text, children⟩
        rcases eq_or_exists_unwrappedNamed node children with same | ⟨child, member, contained⟩
        · rw [same]
          exact .self
        · exact Contains.trans (.child .self member) contained
      · exact .self

theorem eq_or_exists_unwrappedNamed (outer : Node) : ∀ nodes : List Node,
    unwrappedNamed outer nodes = outer ∨
      ∃ child ∈ nodes, child.Contains (unwrappedNamed outer nodes)
  | [] => .inl rfl
  | child :: rest => by
      rw [unwrappedNamed]
      split
      · exact .inr ⟨child, List.mem_cons_self, contains_unwrapped child⟩
      · rcases eq_or_exists_unwrappedNamed outer rest with same | ⟨other, member, contained⟩
        · exact .inl same
        · exact .inr ⟨other, List.mem_cons_of_mem child member, contained⟩

end

theorem contains_of_negated? (negates : node.negated? = some inner) : node.Contains inner := by
  rw [negated?] at negates
  split at negates
  · cases negates
  · split at negates
    · split at negates
      · rcases Option.map_eq_some_iff.mp negates with ⟨operand, fills, rfl⟩
        exact (contains_of_child? fills).trans (contains_unwrapped operand)
      · cases negates
    · cases negates

/-- The fields of a node are in the order of the grammar: a receiver stands before the name of the
method, the name of a class before its parent, and `unless` before its condition. -/
structure InGrammarOrder (node : Node) : Prop where
  call : node.kind = .methodCall → ∀ receiver, node.receiver? = some receiver →
    ∀ method, node.child? "method" = some method → [receiver, method].Sublist node.children
  declaration : node.kind = .classDefinition → ∀ name, node.child? "name" = some name →
    ∀ superclass, node.child? "superclass" = some superclass →
      [name, superclass].Sublist node.children
  conditional : node.label = "unless" ∨ node.label = "unless_modifier" →
    ∀ keyword, node.firstLabelled? ["unless"] = some keyword →
      ∀ condition, node.child? "condition" = some condition →
        [keyword, condition].Sublist node.children

theorem inGrammarOrder_of_fields (receiver : node.receiver? = none)
    (superclass : node.child? "superclass" = none)
    (keyword : node.firstLabelled? ["unless"] = none) : node.InGrammarOrder where
  call _ _ has := nomatch receiver.symm.trans has
  declaration _ _ _ _ has := nomatch superclass.symm.trans has
  conditional _ _ has := nomatch keyword.symm.trans has

/-! ## Stretches of the text -/

def Apart (left right : Node) : Prop :=
  left.stop ≤ right.start ∨ right.stop ≤ left.start

theorem LaidOut.apart_of_child? {field other : String} (laid : node.LaidOut source)
    (differ : field ≠ other) (leftFills : node.child? field = some left)
    (rightFills : node.child? other = some right) : left.Apart right := by
  have leftField : left.field = some field := by simpa using List.find?_some leftFills
  have rightField : right.field = some other := by simpa using List.find?_some rightFills
  have unequal : left ≠ right := by
    intro same
    rw [same, rightField] at leftField
    exact differ (Option.some.inj leftField).symm
  rcases List.getElem_of_mem (List.mem_of_find?_eq_some leftFills) with ⟨i, iBound, rfl⟩
  rcases List.getElem_of_mem (List.mem_of_find?_eq_some rightFills) with ⟨j, jBound, rfl⟩
  rcases Nat.lt_trichotomy i j with before | same | behind
  · exact .inl (List.pairwise_iff_getElem.mp laid.apart i j iBound jBound before)
  · subst same
    exact absurd rfl unequal
  · exact .inr (List.pairwise_iff_getElem.mp laid.apart j i jBound iBound behind)

theorem LaidOutBelow.apart_of_contains {outer other : Node} (below : outer.LaidOutBelow source)
    (otherBelow : other.LaidOutBelow source) (apart : outer.Apart other)
    (leftContained : outer.Contains left) (rightContained : other.Contains right) :
    left.Apart right := by
  have leftBounds := below.bounds leftContained
  have rightBounds := otherBelow.bounds rightContained
  unfold Apart at apart ⊢
  omega

theorem LaidOutBelow.within_write {start stop : Nat} {text : String}
    (below : node.LaidOutBelow source) (ordered : start ≤ stop) (back : stop ≤ node.stop) :
    (Fix.write start stop text).Within source := by
  exact Fix.within_write ordered (back.trans below.self.within)

theorem LaidOutBelow.within_replacedBy {text : String} (below : node.LaidOutBelow source)
    (contained : node.Contains inner) : (inner.replacedBy text).Within source :=
  below.within_write (below.bounds contained).2.1 (below.bounds contained).2.2

theorem LaidOutBelow.within_content {value text : String} (below : node.LaidOutBelow source)
    (content : node.stringContent? = some value) (some : value ≠ "") :
    (Fix.write node.contentBounds.1 node.contentBounds.2 text).Within source := by
  have room : node.HasRoom := by
    by_contra noRoom
    exact some (node.content_eq_empty content noRoom)
  rcases below.content_eq content room with ⟨start, stop, bounds, -, ordered, back, -⟩
  rw [bounds]
  exact below.within_write ordered back

theorem LaidOutBelow.content_front {value : String} (below : node.LaidOutBelow source)
    (content : node.stringContent? = some value) (written : node.text ≠ "") :
    ∃ start : Nat, node.contentBounds.1 = start ∧ start + value.length ≤ node.stop := by
  by_cases room : node.HasRoom
  · rcases below.content_eq content room with ⟨start, stop, bounds, -, ordered, back, cut⟩
    have within := below.self.within
    refine ⟨start, by rw [bounds], ?_⟩
    rw [cut, Text.length_slice_natCast (by omega)]
    omega
  · have empty := node.content_eq_empty content room
    rw [HasRoom, not_or] at room
    have bounds := (node.content_of_few_children (by omega)).1
    have length := below.self.length_text
    have some : node.text.length ≠ 0 := fun none => written (String.length_eq_zero_iff.mp none)
    refine ⟨node.start + 1, by rw [bounds]; rfl, ?_⟩
    rw [empty, String.length_empty]
    omega

/-- A statement is deleted from its text with white space around it and nothing else. -/
theorem LaidOut.exists_deletion (laid : node.LaidOut source) :
    ∃ first last : Nat, node.deletion source = .write first last "" ∧
      (first ≤ node.start ∧ node.stop ≤ last ∧ last ≤ source.length) ∧
      Text.isBlankText (Text.slice source first node.start).toList = true ∧
      Text.isBlankText (Text.slice source node.stop last).toList = true := by
  have within := laid.within
  have front := Text.lineStart_le source.toList node.start
  have back : node.stop ≤ Text.lineEnd source.toList node.stop ∧
      Text.lineEnd source.toList node.stop ≤ source.length := by
    have shorter := (List.dropWhile_sublist (· != '\n')
      (l := source.toList.drop node.stop)).length_le
    rw [List.length_drop, String.length_toList] at shorter
    rw [Text.lineEnd, List.length_tail, String.length_toList]
    omega
  simp only [deletion]
  split
  · next blank =>
      rw [Bool.and_eq_true] at blank
      refine ⟨_, _, rfl, ⟨front, back⟩, ?_, ?_⟩
      · rw [Text.toList_slice]
        exact blank.1
      · rw [Text.toList_slice]
        exact blank.2
  · have nothing (offset : Nat) : (Text.slice source offset offset).toList = [] := by
      rw [Text.toList_slice_natCast, List.drop_of_length_le]
      exact List.length_take_le offset source.toList
    refine ⟨_, _, rfl, ⟨Nat.le_refl _, Nat.le_refl _, within⟩, ?_, ?_⟩
    all_goals
      rw [nothing]
      rfl

theorem LaidOutBelow.within_deletion (below : node.LaidOutBelow source) :
    (node.deletion source).Within source := by
  rcases below.self.exists_deletion with ⟨first, last, deletes, ⟨front, back, inside⟩, -⟩
  have ordered := below.self.ordered
  rw [deletes]
  exact Fix.within_write (by omega) inside

end Node

/-! ## Plans that stay in the text -/

namespace Fix

variable {text source : String} {fix : Fix} {fixes : List Fix}

private theorem isSome_spliceAll? (text : String) (fixes : List Fix) :
    (spliceAll? text fixes).isSome = fixes.all fun fix => fix.replacement.text?.isSome := by
  induction fixes generalizing text with
  | nil => rfl
  | cons fix rest induction =>
      rw [spliceAll?, List.all_cons]
      cases replacement : fix.replacement.text? with
      | none => simp [splice?, replacement]
      | some written => simp [splice?, replacement, induction]

theorem Ascending.drop {start stop : Int} {front : List Fix}
    (ascending : Ascending start stop (front ++ fixes)) :
    ∃ reached, start ≤ reached ∧ Ascending reached stop fixes := by
  induction front generalizing start with
  | nil => exact ⟨start, Int.le_refl start, ascending⟩
  | cons first rest induction =>
      rcases ascending with ⟨before, ordered, behind⟩
      rcases induction behind with ⟨reached, after, remaining⟩
      exact ⟨reached, before.trans (ordered.trans after), remaining⟩

/-- When all fixes behind one are put in, its stretch still lies in the text. -/
theorem within_of_spliceAll? {position : Nat}
    (ascending : Ascending position source.length (fix :: fixes))
    (spliced : spliceAll? source fixes.reverse = some text) : fix.Within text := by
  rcases ascending.exists_natCast with
    ⟨start, stop, startEq, stopEq, -, ordered, within, behind⟩
  rw [spliceAll?_reverse source fixes stop behind] at spliced
  rcases Option.map_eq_some_iff.mp spliced with ⟨written, -, rfl⟩
  refine ⟨by omega, by omega, ?_⟩
  rw [stopEq, String.length_append]
  have front : (Text.slice source 0 stop).length = stop := Text.length_slice_zero within
  omega

end Fix

namespace Correction

theorem isSome_splice? (plan : Correction) (text : String) :
    (plan.splice? text).isSome = plan.fixes.all fun fix => fix.replacement.text?.isSome := by
  rw [splice?, Fix.isSome_spliceAll?]
  exact (stableSort_perm plan.fixes).all_eq

/-- A plan stays in a text if its fixes follow one another in it, each of them still lies in what
the text has become when it is put in, and all together leave what lies between them. -/
structure StaysIn (plan : Correction) (source : String) : Prop where
  ascending : Fix.Ascending 0 source.length plan.fixes
  eachWithin : ∀ front fix back, stableSort Fix.notBefore plan.fixes = front ++ fix :: back →
    ∀ text, Fix.spliceAll? source front = some text → fix.Within text
  spliced : plan.splice? source =
    (Fix.writtenTexts? plan.fixes).map (Text.weave (Fix.gaps source 0 plan.fixes))

theorem staysIn_ofOffenses {source : String} {offenses : List Offense}
    (within : ∀ offense ∈ offenses, ∀ fix, offense.fix = some fix → fix.Within source) :
    (ofOffenses offenses).StaysIn source := by
  have inside := within_of_mem_fixes within
  have ordered := pairwise_precedes_fixes within
  have backwards := stableSort_eq_reverse (ordered.imp Fix.notBefore_of_precedes)
  have ascending : Fix.Ascending (0 : Nat) source.length (ofOffenses offenses).fixes :=
    Fix.ascending_of_pairwise (by omega) (fun fix member => (inside fix member).front) inside
      ordered
  constructor
  case ascending => exact ascending
  case eachWithin =>
    intro front fix back sorted text spliced
    rw [backwards] at sorted
    have listed : (ofOffenses offenses).fixes = back.reverse ++ fix :: front.reverse := by
      rw [← List.reverse_reverse (ofOffenses offenses).fixes, sorted]
      simp
    rw [listed] at ascending
    rcases ascending.drop with ⟨reached, beyond, remaining⟩
    rcases Int.eq_ofNat_of_zero_le beyond with ⟨position, rfl⟩
    exact Fix.within_of_spliceAll? remaining (by rwa [List.reverse_reverse])
  case spliced =>
    have noFront : Text.slice source 0 0 = "" := by
      rw [← String.toList_inj]
      exact Text.toList_slice_zero source 0
    rw [splice?, backwards, Fix.spliceAll?_reverse source _ 0 ascending]
    simp only [Int.natCast_zero, noFront, String.empty_append]

end Correction

end FormulaLint
