import FormulaLint.Proofs.RuleDrafts
import FormulaLint.Rules.Dependency

/-! Dependencies under a condition on their own option. The fix writes a tag behind the declaration
without its condition. The tag belongs behind the only argument of the declaration, which need not
end where the declaration ends. -/

namespace FormulaLint

namespace Text

variable {word rest : List Char}

/-- A word that is not what some of its front makes when it is repeated: moved to the back, the
front makes another word. -/
def IsUnrepeated (word : List Char) : Prop :=
  ∀ count < word.length, count ≠ 0 → word.take count ++ word ≠ word ++ word.take count

instance (word : List Char) : Decidable (IsUnrepeated word) :=
  inferInstanceAs (Decidable (∀ count < word.length, count ≠ 0 → _))

/-- A text reads the same with the word in front as with the word behind just if it is made of that
word. -/
theorem append_comm_iff (unrepeated : IsUnrepeated word) (written : word ≠ []) :
    rest ++ word = word ++ rest ↔ ∃ count, rest = (List.replicate count word).flatten := by
  constructor
  · intro same
    -- the word is taken off the front of the text until what is left is shorter than it
    induction length : rest.length using Nat.strongRecOn generalizing rest with
    | ind n induction =>
        subst length
        have front : word <+: rest ++ word := ⟨rest, same.symm⟩
        have opening : rest <+: rest ++ word := List.prefix_append rest word
        rcases Nat.lt_or_ge rest.length word.length with shorter | longer
        · have cut := List.prefix_iff_eq_take.mp
            (List.prefix_of_prefix_length_le opening front shorter.le)
          have none : rest.length = 0 := by
            by_contra some
            apply unrepeated rest.length shorter some
            rw [← cut]
            exact same
          exact ⟨0, List.length_eq_zero_iff.mp none⟩
        · rcases List.prefix_of_prefix_length_le front opening longer with ⟨left, rfl⟩
          rw [List.append_assoc] at same
          have shorter : left.length < (word ++ left).length := by
            have some := List.length_pos_iff.mpr written
            rw [List.length_append]
            omega
          rcases induction _ shorter (List.append_cancel_left same) rfl with ⟨count, rfl⟩
          exact ⟨count + 1, by rw [List.replicate_succ, List.flatten_cons]⟩
  · intro made
    rcases made with ⟨count, rfl⟩
    induction count with
    | zero => simp
    | succ count induction =>
        rw [List.replicate_succ, List.flatten_cons, List.append_assoc, induction]

end Text

namespace Rules

variable {context : Surroundings} {site : Site} {draft : Draft} {source : String}
  {body argument : Node}

def writtenTag (conditional : String) : String :=
  if conditional = "if_modifier" then " => :optional" else " => :recommended"

def tagged (source : String) (body argument : Node) (tag : String) : String :=
  Text.slice source body.start argument.stop ++ tag ++ Text.slice source argument.stop body.stop

private theorem append_conditionTag? {conditional name tag : String} {condition : Node}
    (text : String)
    (told : conditionTag? conditional condition name = some tag) :
    text ++ " => :" ++ tag = text ++ writtenTag conditional := by
  rw [String.append_assoc, writtenTag]
  rcases Option.bind_eq_some_iff.mp told with ⟨optionNode, -, told⟩
  rcases Option.bind_eq_some_iff.mp told with ⟨option, -, told⟩
  rcases Option.bind_eq_some_iff.mp told with ⟨query, -, told⟩
  split at told
  · cases told
  · split at told
    · cases told
    · split at told
      · next modifier =>
          rw [if_pos modifier]
          split at told
          · cases told
            rfl
          · cases told
      · next modifier =>
          rw [if_neg modifier]
          split at told
          · cases told
            rfl
          · cases told

theorem exists_of_drafts_conditionalDependency
    (drafted : conditionalDependency.Drafts context site draft) :
    ∃ body argument, site.node.child? "body" = some body ∧ isDependency body = true ∧
      body.arguments = [argument] ∧
      draft.fix = some (site.node.replacedBy (body.text ++ writtenTag site.node.label)) := by
  have member := (Rule.drafts_correcting_iff.mp drafted).2
  split at member
  · split at member
    · next body condition fills _ =>
        dsimp only at member
        split at member
        · cases member
        · next tag told =>
            split at told
            · cases told
            · next sole =>
                rcases Option.bind_eq_some_iff.mp told with ⟨argument, first, told⟩
                rcases Option.bind_eq_some_iff.mp told with ⟨name, -, told⟩
                simp only [Bool.or_eq_true, Bool.not_eq_true', decide_eq_true_eq, not_or,
                  Bool.not_eq_false, not_not] at sole
                rcases List.length_eq_one_iff.mp sole.2 with ⟨only, listed⟩
                rw [List.mem_singleton.mp member, append_conditionTag? body.text told]
                exact ⟨body, only, fills, sole.1, listed, rfl⟩
    · cases member
  · cases member

private theorem isUnrepeated_writtenTag (conditional : String) :
    Text.IsUnrepeated (writtenTag conditional).toList ∧ (writtenTag conditional).toList ≠ [] := by
  rw [writtenTag]
  split
  all_goals decide

/-- A tag behind the whole declaration and one behind the argument make the same text just if what
stands between the two places reads the same on either side of the tag. -/
theorem append_eq_tagged_iff {tag : String} (laidOut : body.LaidOutBelow source)
    (contained : body.Contains argument) :
    body.text ++ tag = tagged source body argument tag ↔
      (Text.slice source argument.stop body.stop).toList ++ tag.toList =
        tag.toList ++ (Text.slice source argument.stop body.stop).toList := by
  have bounds := laidOut.bounds contained
  have parted : Text.slice source body.start argument.stop ++
      Text.slice source argument.stop body.stop = body.text := by
    rw [laidOut.self.text]
    exact Text.slice_append_slice source (bounds.1.trans bounds.2.1) bounds.2.2
  rw [← parted, tagged, ← String.toList_inj]
  simp only [String.toList_append, List.append_assoc, List.append_right_inj]

/-- The tag is written behind the argument if and only if nothing stands behind the argument in the
declaration, or nothing but the tag itself. -/
theorem conditionalDependency_tags_iff (context : Surroundings) (site : Site) (draft : Draft)
    (drafted : conditionalDependency.Drafts context site draft)
    (laidOut : site.node.LaidOutBelow context.source) :
    ∃ body argument, site.node.child? "body" = some body ∧ isDependency body = true ∧
      body.arguments = [argument] ∧
      let tag := writtenTag site.node.label
      draft.fix = some (site.node.replacedBy (body.text ++ tag)) ∧
      (draft.fix = some (site.node.replacedBy (tagged context.source body argument tag)) ↔
        ∃ count, (Text.slice context.source argument.stop body.stop).toList =
          (List.replicate count tag.toList).flatten) := by
  rcases exists_of_drafts_conditionalDependency drafted with
    ⟨body, argument, fills, depends, sole, fix⟩
  refine ⟨body, argument, fills, depends, sole, fix, ?_⟩
  have bodyLaid := laidOut.of_contains (Node.contains_of_child? fills)
  have member : argument ∈ body.arguments := sole ▸ List.mem_singleton_self argument
  have unrepeated := isUnrepeated_writtenTag site.node.label
  rw [fix, Option.some_inj, Node.replacedBy_inj,
    append_eq_tagged_iff bodyLaid (Node.contains_of_mem_arguments member),
    Text.append_comm_iff unrepeated.1 unrepeated.2]

/-! ### Modifiers -/

def quotedName (start : Nat) : Node :=
  .onLine "string" true none start (start + 3) "'x'" [
    .onLine "'" false none start (start + 1) "'" [],
    .onLine "string_content" true none (start + 1) (start + 2) "x" [],
    .onLine "'" false none (start + 2) (start + 3) "'" []]

def nameQuestion (start : Nat) : Node :=
  .onLine "call" true (some "condition") start (start + 15) "build.with? 'x'" [
    .onLine "identifier" true (some "receiver") start (start + 5) "build" [],
    .onLine "." false none (start + 5) (start + 6) "." [],
    .onLine "identifier" true (some "method") (start + 6) (start + 11) "with?" [],
    .onLine "argument_list" true (some "arguments") (start + 12) (start + 15) "'x'" [
      quotedName (start + 12)]]

def underQuestion (source : String) (body : Node) : Node :=
  .onLine "if_modifier" true none 0 source.length source [
    body, .onLine "if" false none (body.stop + 1) (body.stop + 3) "if" [],
    nameQuestion (body.stop + 4)]

def bareDeclaration : Node :=
  .onLine "call" true (some "body") 0 14 "depends_on 'x'" [
    .onLine "identifier" true (some "method") 0 10 "depends_on" [],
    .onLine "argument_list" true (some "arguments") 11 14 "'x'" [quotedName 11]]

private theorem drafts_bareDeclaration :
    let source := "depends_on 'x' if build.with? 'x'"
    let node := underQuestion source bareDeclaration
    ∃ draft, conditionalDependency.Drafts (.ofLine source node) ⟨node, []⟩ draft :=
  ⟨_, Rule.drafts_correcting_iff.mpr ⟨by decide, List.mem_singleton_self _⟩⟩

/-- The tag stands behind the name, inside the declaration. -/
theorem conditionalDependency_tags_bareDeclaration :
    let source := "depends_on 'x' if build.with? 'x'"
    let node := underQuestion source bareDeclaration
    ∃ draft, conditionalDependency.Drafts (.ofLine source node) ⟨node, []⟩ draft ∧
      draft.fix = some (node.replacedBy "depends_on 'x' => :optional") := by
  intro source node
  rcases drafts_bareDeclaration with ⟨draft, drafted⟩
  rcases conditionalDependency_tags_iff _ _ _ drafted (by decide) with
    ⟨body, argument, fills, -, sole, -, tags⟩
  have declared : body = bareDeclaration := Option.some.inj fills.symm
  subst declared
  have named : argument = quotedName 11 := List.singleton_inj.mp sole.symm
  subst named
  have fix := tags.mpr ⟨0, by decide⟩
  have text : tagged source bareDeclaration (quotedName 11) (writtenTag node.label) =
      "depends_on 'x' => :optional" := by decide
  rw [← text]
  exact ⟨draft, drafted, fix⟩

def bracketedDeclaration : Node :=
  .onLine "call" true (some "body") 0 15 "depends_on('x')" [
    .onLine "identifier" true (some "method") 0 10 "depends_on" [],
    .onLine "argument_list" true (some "arguments") 10 15 "('x')" [
      .onLine "(" false none 10 11 "(" [], quotedName 11, .onLine ")" false none 14 15 ")" []]]

private theorem drafts_bracketedDeclaration :
    let source := "depends_on('x') if build.with? 'x'"
    let node := underQuestion source bracketedDeclaration
    ∃ draft, conditionalDependency.Drafts (.ofLine source node) ⟨node, []⟩ draft :=
  ⟨_, Rule.drafts_correcting_iff.mpr ⟨by decide, List.mem_singleton_self _⟩⟩

/-- The tag stands behind the bracket, outside the arguments. -/
theorem not_tagged_bracketedDeclaration :
    let source := "depends_on('x') if build.with? 'x'"
    let node := underQuestion source bracketedDeclaration
    node.LaidOutBelow source ∧
    ∃ draft, conditionalDependency.Drafts (.ofLine source node) ⟨node, []⟩ draft ∧
      draft.fix = some (node.replacedBy "depends_on('x') => :optional") ∧
      draft.fix ≠ some (node.replacedBy "depends_on('x' => :optional)") := by
  intro source node
  refine ⟨by decide, ?_⟩
  rcases drafts_bracketedDeclaration with ⟨draft, drafted⟩
  rcases exists_of_drafts_conditionalDependency drafted with ⟨body, -, fills, -, -, fix⟩
  have declared : body = bracketedDeclaration := Option.some.inj fills.symm
  subst declared
  have text : bracketedDeclaration.text ++ writtenTag node.label =
      "depends_on('x') => :optional" := by decide
  rw [text] at fix
  refine ⟨draft, drafted, fix, ?_⟩
  rw [fix, ne_eq, Option.some_inj, Node.replacedBy_inj]
  decide

end Rules

end FormulaLint
