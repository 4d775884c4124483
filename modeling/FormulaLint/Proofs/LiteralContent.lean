import FormulaLint.Proofs.MatchBounds
import FormulaLint.Proofs.RuleDrafts

/-! The content of a string literal in the source. It is the stretch between the content bounds of
the literal, so what is found in the content stands in the source as far behind the first of these
bounds as it stands in the content. -/

namespace FormulaLint

namespace Node

structure IsPlainString (node : Node) : Prop where
  label : node.label = "string"
  plain : ∀ part ∈ node.children, part.label ≠ "interpolation"

theorem isPlainString_iff {node : Node} :
    node.IsPlainString ↔ ∃ content, node.stringContent? = some content := by
  constructor
  · intro plain
    have accepted : ¬(node.label ≠ "string" ||
        node.children.any fun child => child.label == "interpolation") := by
      simpa [plain.label] using plain.plain
    rw [stringContent?, if_neg accepted]
    split
    all_goals exact ⟨_, rfl⟩
  · rintro ⟨content, found⟩
    rw [stringContent?] at found
    split at found
    · cases found
    · next accepted =>
        simp only [ne_eq, decide_not, Bool.or_eq_true, Bool.not_eq_true', decide_eq_false_iff_not,
          List.any_eq_true, beq_iff_eq, not_or, not_not, not_exists, not_and] at accepted
        exact ⟨accepted.1, accepted.2⟩

/-- A literal has a content that stands in the source from one offset up to another. These offsets
are its content bounds, and lie in the literal. -/
structure HasContentAt (literal : Node) (source content : String) (start stop : Nat) : Prop where
  contentEq : literal.stringContent? = some content
  bounds : literal.contentBounds = (↑start, ↑stop)
  front : literal.start ≤ start
  ordered : start ≤ stop
  back : stop ≤ literal.stop
  cut : content = Text.slice source start stop

variable {root literal : Node} {source content : String} {start stop first last : Nat}

theorem LaidOutBelow.exists_hasContentAt (below : literal.LaidOutBelow source)
    (plain : literal.IsPlainString) (room : literal.HasRoom) :
    ∃ content start stop, literal.HasContentAt source content start stop := by
  rcases isPlainString_iff.mp plain with ⟨content, contentEq⟩
  rcases below.content_eq contentEq room with ⟨start, stop, bounds, front, ordered, back, cut⟩
  exact ⟨content, start, stop, contentEq, bounds, front, ordered, back, cut⟩

namespace HasContentAt

variable (placed : literal.HasContentAt source content start stop)

include placed

private theorem length_le : start + content.length ≤ stop := by
  have length := congrArg List.length (Text.toList_slice_natCast source start stop)
  rw [← placed.cut, List.length_drop, List.length_take, String.length_toList] at length
  have ordered := placed.ordered
  omega

theorem slice_content (ordered : first ≤ last) (within : last ≤ content.length) :
    Text.slice source (start + first : Nat) (start + last : Nat) =
      Text.slice content first last := by
  have length := placed.length_le
  have cut := @Text.slice_slice source start stop (start + first) (start + last)
    (by omega) (by omega) (by omega)
  rw [← placed.cut] at cut
  rw [← cut]
  congr 1 <;> omega

theorem exists_matched {expression : Pattern.Expression} {found : Pattern.Match}
    (matched : expression.search content = some found) :
    ∃ front taken back, content.toList = front ++ (taken ++ back) ∧
      found.Cuts expression front taken back ∧
      Text.slice source (start + found.start : Nat) (start + found.stop : Nat) =
        String.ofList taken := by
  rcases Pattern.Expression.exists_cuts_of_search matched with ⟨front, taken, back, parted, cuts⟩
  rcases Pattern.Expression.bounds_of_search matched with ⟨ordered, within⟩
  refine ⟨front, taken, back, parted, cuts, ?_⟩
  rw [placed.slice_content ordered within, cuts.start, cuts.stop, ← String.toList_inj,
    Text.toList_slice_natCast, parted, ← List.append_assoc, ← List.length_append, List.take_left,
    List.drop_left, String.toList_ofList]

end HasContentAt

/-- In a tree that is laid out in the source, a plain string literal with room for its quotes has
its content at its content bounds. Each stretch of the content and each match in it are found in the
source behind the first of these bounds. -/
theorem content_stands_in_source (below : root.LaidOutBelow source)
    (contained : root.Contains literal) (plain : literal.IsPlainString)
    (long : 2 ≤ literal.text.length) :
    ∃ content start stop, literal.HasContentAt source content start stop ∧
      (∀ first last : Nat, first ≤ last → last ≤ content.length →
        Text.slice source (start + first : Nat) (start + last : Nat) =
          Text.slice content first last) ∧
      ∀ (expression : Pattern.Expression) (found : Pattern.Match),
        expression.search content = some found →
          ∃ front taken back, content.toList = front ++ (taken ++ back) ∧
            found.Cuts expression front taken back ∧
            Text.slice source (start + found.start : Nat) (start + found.stop : Nat) =
              String.ofList taken := by
  rcases (below.of_contains contained).exists_hasContentAt plain (.inr long) with
    ⟨content, start, stop, placed⟩
  exact ⟨content, start, stop, placed, fun _ _ => placed.slice_content,
    fun _ _ => placed.exists_matched⟩

def escapedCommand : Node :=
  .onLine "string" true none 7 18 "\x22gcc\\té -c\x22" [
    .onLine "\x22" false none 7 8 "\x22" [],
    .onLine "string_content" true none 8 11 "gcc" [],
    .onLine "escape_sequence" true none 11 13 "\\t" [],
    .onLine "string_content" true none 13 17 "é -c" [],
    .onLine "\x22" false none 17 18 "\x22" []]

def escapedCall : Node :=
  .onLine "call" true none 0 18 "system \x22gcc\\té -c\x22" [
    .onLine "identifier" true (some "method") 0 6 "system" [],
    .onLine "argument_list" true (some "arguments") 7 18 "\x22gcc\\té -c\x22" [escapedCommand]]

theorem content_stands_in_source_escaped :
    escapedCall.LaidOutBelow escapedCall.text ∧ escapedCall.Contains escapedCommand ∧
      escapedCommand.IsPlainString ∧ 2 ≤ escapedCommand.text.length ∧
      ∃ content start stop,
        escapedCommand.HasContentAt escapedCall.text content start stop ∧
        ∃ found, (Pattern.Expression.literal "é -").search content = some found ∧
          ∃ front taken back, content.toList = front ++ (taken ++ back) ∧
            found.Cuts (.literal "é -") front taken back ∧
            Text.slice escapedCall.text (start + found.start : Nat) (start + found.stop : Nat) =
              String.ofList taken := by
  have laidOut : escapedCall.LaidOutBelow escapedCall.text := by decide
  have contained : escapedCall.Contains escapedCommand :=
    .child (.child .self (.tail _ (.head _))) (.head _)
  have plain : escapedCommand.IsPlainString := ⟨rfl, by decide⟩
  have long : 2 ≤ escapedCommand.text.length := by decide
  refine ⟨laidOut, contained, plain, long, ?_⟩
  rcases content_stands_in_source laidOut contained plain long with
    ⟨content, start, stop, placed, -, inSource⟩
  have spelled : content = "gcc\\té -c" := Option.some.inj (placed.contentEq.symm.trans rfl)
  have matched : (Pattern.Expression.literal "é -").search content = some ⟨5, 8, []⟩ := by
    rw [spelled]
    rfl
  exact ⟨content, start, stop, placed, _, matched, inSource _ _ matched⟩

end Node

end FormulaLint
