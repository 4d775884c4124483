import FormulaLint.Proofs.RuleDrafts
import FormulaLint.Rules.Deprecated

/-! Statements that are deleted. A deletion takes white space from around the statement and nothing
else. It therefore ends in front of whatever is written behind the statement, which is the condition
if the statement is the body of a modifier. -/

namespace FormulaLint

/-- A fix that replaces a node, and perhaps more than that. -/
def Fix.Covers (fix : Fix) (node : Node) : Prop :=
  fix.start ≤ node.start ∧ node.stop ≤ fix.stop

instance (fix : Fix) (node : Node) : Decidable (fix.Covers node) :=
  inferInstanceAs (Decidable (fix.start ≤ node.start ∧ node.stop ≤ fix.stop))

namespace Node

variable {node body keyword condition : Node} {source : String}

/-! ## White space around a statement -/

theorem le_of_isBlankText {start stop offset : Nat} {c : Char}
    (blank : Text.isBlankText (Text.slice source start stop).toList = true)
    (behind : start ≤ offset) (stands : source.toList[offset]? = some c)
    (dark : Character.isBlank c = false) : stop ≤ offset := by
  by_contra inside
  have inStretch : (Text.slice source start stop).toList[offset - start]? = some c := by
    rw [Text.toList_slice_natCast, List.getElem?_drop, Nat.add_sub_cancel' behind,
      List.getElem?_take_of_lt (by omega), stands]
  have white := List.all_eq_true.mp blank c (List.mem_of_getElem? inStretch)
  rw [dark] at white
  cases white

/-! ## Modifiers -/

/-- A modifier as the grammar builds it: a body, a keyword and a condition, in this order. -/
structure ModifierShape (node body keyword condition : Node) : Prop where
  label : node.label = "if_modifier" ∨ node.label = "unless_modifier"
  fills : node.child? "body" = some body
  asks : node.child? "condition" = some condition
  listed : [body, keyword, condition].Sublist node.children
  spelled : keyword.text = "if" ∨ keyword.text = "unless"

namespace ModifierShape

variable (shape : node.ModifierShape body keyword condition)

include shape

private theorem body_mem : body ∈ node.children :=
  shape.listed.subset List.mem_cons_self

theorem keyword_mem : keyword ∈ node.children :=
  shape.listed.subset (List.mem_cons_of_mem body List.mem_cons_self)

theorem exists_dark (laidOut : node.LaidOutBelow source) :
    keyword.start < keyword.stop ∧
      ∃ c, source.toList[keyword.start]? = some c ∧ Character.isBlank c = false := by
  have laid := (laidOut.child shape.keyword_mem).self
  have opening : ∃ c, keyword.text.toList[0]? = some c ∧ Character.isBlank c = false := by
    rcases shape.spelled with spelled | spelled
    · exact ⟨'i', by rw [spelled]; rfl, by decide⟩
    · exact ⟨'u', by rw [spelled]; rfl, by decide⟩
  rcases opening with ⟨c, first, dark⟩
  have long : keyword.start < keyword.stop := by
    have some := List.length_pos_of_mem (List.mem_of_getElem? first)
    rw [String.length_toList, laid.length_text] at some
    omega
  rw [laid.text, Text.toList_slice_natCast, List.getElem?_drop,
    List.getElem?_take_of_lt (by omega)] at first
  exact ⟨long, c, first, dark⟩

/-- The deletion of the body ends in front of the keyword. -/
theorem exists_deletion (laidOut : node.LaidOutBelow source) :
    ∃ first last : Nat, body.deletion source = .write first last "" ∧
      first ≤ body.start ∧ body.stop ≤ last ∧ last ≤ keyword.start ∧
      keyword.start < node.stop ∧ node.stop ≤ source.length := by
  rcases (laidOut.child shape.body_mem).self.exists_deletion with
    ⟨first, last, deletes, ⟨front, back, -⟩, -, blank⟩
  have pair : [body, keyword].Sublist node.children :=
    (List.sublist_append_left [body, keyword] [condition]).trans shape.listed
  have behind := laidOut.self.stop_le_start pair
  rcases shape.exists_dark laidOut with ⟨long, c, stands, dark⟩
  have inFront := le_of_isBlankText blank behind stands dark
  have inside := (laidOut.self.nested keyword shape.keyword_mem).2
  exact ⟨first, last, deletes, front, back, inFront, by omega, laidOut.self.within⟩

end ModifierShape

end Node

namespace Rules

variable {context : Surroundings} {site : Site} {draft : Draft}

private theorem fix_of_drafts_zeroRebuild (drafted : zeroRebuild.Drafts context site draft) :
    draft.fix = some (site.node.deletion context.source) := by
  have member := (Rule.drafts_correcting_iff.mp drafted).2
  split at member
  · split at member
    · cases member
    · split at member
      · rw [List.mem_singleton.mp member]
        rfl
      · cases member
  · cases member

private theorem fix_of_drafts_llvmFailure (drafted : llvmFailure.Drafts context site draft) :
    draft.fix = some (site.node.deletion context.source) := by
  have member := (Rule.drafts_correcting_iff.mp drafted).2
  split at member
  · rw [List.mem_singleton.mp member]
    rfl
  · cases member

/-- A statement is taken out together with the modifier that it is the body of, or not at all. -/
def TakesAlong (draft : Draft) (modifier : Node) : Prop :=
  ∀ fix, draft.fix = some fix → fix.Covers modifier

/-- The body of a modifier is deleted without the modifier: the fix covers the body and leaves
everything from the keyword on, so that a condition without a statement is left behind. -/
theorem deletion_leaves_condition (context : Surroundings) (site : Site) (draft : Draft)
    (modifier keyword condition : Node)
    (drafted : zeroRebuild.Drafts context site draft ∨ llvmFailure.Drafts context site draft)
    (laidOut : modifier.LaidOutBelow context.source)
    (shape : modifier.ModifierShape site.node keyword condition) :
    ¬TakesAlong draft modifier ∧
    ∃ first last : Nat,
      let fix := Fix.write first last ""
      draft.fix = some fix ∧ fix.Covers site.node ∧ last ≤ keyword.start ∧
      fix.splice? context.source = some (Text.slice context.source 0 first ++
        Text.slice context.source last keyword.start ++
        Text.slice context.source keyword.start context.source.length) := by
  have offered : draft.fix = some (site.node.deletion context.source) :=
    drafted.elim fix_of_drafts_zeroRebuild fix_of_drafts_llvmFailure
  rcases shape.exists_deletion laidOut with
    ⟨first, last, deletes, front, back, inFront, inside, within⟩
  rw [deletes] at offered
  constructor
  · intro along
    have covered : (modifier.stop : Int) ≤ last := (along _ offered).2
    omega
  · have kept : Text.slice context.source last keyword.start ++
        Text.slice context.source keyword.start context.source.length =
          Text.slice context.source last context.source.length :=
      Text.slice_append_slice context.source inFront (by omega)
    refine ⟨first, last, offered, ⟨Int.ofNat_le.mpr front, Int.ofNat_le.mpr back⟩, inFront, ?_⟩
    rw [Fix.splice?_write, String.append_empty, String.append_assoc, kept]

/-! ### Modifiers on one line -/

def keywordToken (keyword : String) (start stop : Nat) : Node :=
  .onLine keyword false none start stop keyword []

def conditionName (start : Nat) : Node :=
  .onLine "identifier" true (some "condition") start (start + 1) "x" []

def underKeyword (source keyword : String) (body : Node) (stop : Nat) : Node :=
  .onLine (keyword ++ "_modifier") true none 0 (stop + 2) source [
    body, keywordToken keyword (body.stop + 1) stop, conditionName (stop + 1)]

theorem shape_underKeyword {source keyword : String} {body : Node} {stop : Nat}
    (fills : body.field = some "body") (spelled : keyword = "if" ∨ keyword = "unless") :
    (underKeyword source keyword body stop).ModifierShape body
      (keywordToken keyword (body.stop + 1) stop) (conditionName (stop + 1)) where
  label := by
    rcases spelled with rfl | rfl
    · exact .inl rfl
    · exact .inr rfl
  fills := List.find?_cons_of_pos (beq_iff_eq.mpr fills)
  asks := by
    have other : ¬(body.field == some "condition") = true := by simp [fills]
    exact List.find?_cons_of_neg other
  listed := List.Sublist.refl _
  spelled := spelled

def llvmStatement : Node :=
  .onLine "call" true (some "body") 0 16 "fails_with :llvm" [
    .onLine "identifier" true (some "method") 0 10 "fails_with" [],
    .onLine "argument_list" true (some "arguments") 11 16 ":llvm" [
      .onLine "simple_symbol" true none 11 16 ":llvm" []]]

/-- The condition stays where it is. -/
theorem deletion_leaves_condition_llvmStatement :
    let source := "fails_with :llvm unless x"
    let node := underKeyword source "unless" llvmStatement 23
    ∃ draft fix, llvmFailure.Drafts (.ofLine source node) ⟨llvmStatement, [node]⟩ draft ∧
      draft.fix = some fix ∧ fix.splice? source = some " unless x" := by
  intro source node
  have drafted : llvmFailure.Drafts (.ofLine source node) ⟨llvmStatement, [node]⟩ _ :=
    Rule.drafts_correcting_iff.mpr ⟨by decide, List.mem_singleton_self _⟩
  have shape : node.ModifierShape llvmStatement (keywordToken "unless" 17 23) (conditionName 24) :=
    shape_underKeyword rfl (.inr rfl)
  rcases deletion_leaves_condition _ _ _ _ _ _ (.inr drafted) (by decide) shape with
    ⟨-, first, last, fix, -, -, spliced⟩
  have offered : llvmStatement.deletion source = .write 0 16 "" := if_neg (by decide)
  have same : Fix.write 0 16 "" = .write first last "" := offered.symm.trans (Option.some.inj fix)
  have first_eq : 0 = first := Int.ofNat.inj (congrArg Fix.start same)
  have last_eq : 16 = last := Int.ofNat.inj (congrArg Fix.stop same)
  subst first_eq last_eq
  exact ⟨_, _, drafted, fix, spliced.trans (by decide)⟩

def rebuildStatement : Node :=
  .onLine "call" true (some "body") 0 9 "rebuild 0" [
    .onLine "identifier" true (some "method") 0 7 "rebuild" [],
    .onLine "argument_list" true (some "arguments") 8 9 "0" [
      .onLine "integer" true none 8 9 "0" []]]

/-- A condition without a statement is left behind. -/
theorem not_takesAlong_rebuildStatement :
    let source := "rebuild 0 if x"
    let node := underKeyword source "if" rebuildStatement 12
    node.LaidOutBelow source ∧
    node.ModifierShape rebuildStatement (keywordToken "if" 10 12) (conditionName 13) ∧
    ∃ draft fix, zeroRebuild.Drafts (.ofLine source node) ⟨rebuildStatement, [node]⟩ draft ∧
      draft.fix = some fix ∧ ¬fix.Covers node ∧ fix.splice? source = some " if x" := by
  intro source node
  have drafted : zeroRebuild.Drafts (.ofLine source node) ⟨rebuildStatement, [node]⟩ _ :=
    Rule.drafts_correcting_iff.mpr ⟨by decide, List.mem_singleton_self _⟩
  exact ⟨by decide, shape_underKeyword rfl (.inl rfl), _, _, drafted, rfl, by decide, by decide⟩

end Rules

end FormulaLint
