import FormulaLint.Proofs.SimultaneousSplice
import FormulaLint.Proofs.SourceLine
import FormulaLint.Tree.Call
import FormulaLint.Tree.Literal

/-! Trees that are laid out in a text: each node is a stretch of it, and the children of a node are
stretches of the node that follow one another. What is cut out of the text of a node between its
children is then a stretch of the whole text, inside the node. -/

namespace FormulaLint

namespace Text

variable {text : String} {start stop first last : Nat}

theorem length_slice_natCast (within : stop ≤ text.length) :
    (slice text start stop).length = stop - start := by
  rw [← String.length_toList] at within
  rw [← String.length_toList, toList_slice_natCast, List.length_drop, List.length_take,
    Nat.min_eq_left within]

theorem slice_slice (front : start ≤ first) (ordered : first ≤ last) (back : last ≤ stop) :
    slice (slice text start stop) (first - start) (last - start) = slice text first last := by
  rw [← Int.ofNat_sub front, ← Int.ofNat_sub (front.trans ordered), ← String.toList_inj]
  simp only [toList_slice_natCast]
  rw [List.take_drop, List.drop_drop, Nat.add_sub_cancel' front,
    Nat.add_sub_cancel' (front.trans ordered), List.take_take, Nat.min_eq_left back]

theorem slice_middle (front middle back : String) :
    slice (front ++ middle ++ back) front.length (front.length + middle.length : Nat) = middle := by
  rw [← String.toList_inj, toList_slice_natCast, ← String.length_append, String.toList_append,
    ← @String.length_toList (front ++ middle), List.take_left, String.toList_append,
    ← @String.length_toList front, List.drop_left]

theorem slice_one_neg_one (text : String) :
    slice text 1 (-1) = slice text (1 : Nat) (text.length - 1 : Nat) := by
  have last : resolve text.toList.length (-1) =
      resolve text.toList.length (text.length - 1 : Nat) := by
    rw [resolve_natCast, String.length_toList, resolve, if_pos (by decide)]
    omega
  rw [slice, slice, segment, segment, last]
  rfl

end Text

namespace Node

/-! ## Nodes below a node -/

variable {root node : Node} {source : String}

theorem Contains.trans {inner : Node} (outer : root.Contains node) (below : node.Contains inner) :
    root.Contains inner := by
  induction below with
  | self => exact outer
  | child _ member induction => exact .child induction member

/-- What holds of all nodes of a tree holds of its root and of all nodes below its children. -/
theorem forall_contains_iff {property : Node → Prop} {label : String} {named : Bool}
    {field : Option String} {extent : Extent} {text : String} {children : List Node} :
    (∀ node, Contains ⟨label, named, field, extent, text, children⟩ node → property node) ↔
      property ⟨label, named, field, extent, text, children⟩ ∧
        ∀ child ∈ children, ∀ node, child.Contains node → property node := by
  constructor
  · intro all
    refine ⟨all _ .self, ?_⟩
    intro child member node contained
    exact all node (Contains.trans (.child .self member) contained)
  · rintro ⟨atRoot, below⟩ node contained
    have place : node = ⟨label, named, field, extent, text, children⟩ ∨
        ∃ child ∈ children, child.Contains node := by
      induction contained with
      | self => exact .inl rfl
      | child _ member induction =>
          rcases induction with rfl | ⟨child, first, contained⟩
          · exact .inr ⟨_, member, .self⟩
          · exact .inr ⟨child, first, .child contained member⟩
    rcases place with rfl | ⟨child, member, contained⟩
    · exact atRoot
    · exact below child member node contained

theorem contains_of_linked {site : Site} (linked : Site.Linked root site) :
    root.Contains site.node := by
  induction linked with
  | root => exact .self
  | child _ member induction => exact .child induction member

/-! ## Layout -/

/-- A node is laid out in a text if its text is the stretch between its ends and its children are
stretches of it, in order and apart from one another. -/
structure LaidOut (node : Node) (source : String) : Prop where
  ordered : node.start ≤ node.stop
  within : node.stop ≤ source.length
  text : node.text = Text.slice source node.start node.stop
  nested : ∀ child ∈ node.children, node.start ≤ child.start ∧ child.stop ≤ node.stop
  apart : node.children.Pairwise fun left right => left.stop ≤ right.start

def LaidOutBelow (root : Node) (source : String) : Prop :=
  ∀ node, root.Contains node → node.LaidOut source

instance (node : Node) (source : String) : Decidable (node.LaidOut source) :=
  decidable_of_iff (node.start ≤ node.stop ∧ node.stop ≤ source.length ∧
      node.text = Text.slice source node.start node.stop ∧
      (∀ child ∈ node.children, node.start ≤ child.start ∧ child.stop ≤ node.stop) ∧
      node.children.Pairwise fun left right => left.stop ≤ right.start)
    ⟨fun ⟨ordered, within, text, nested, apart⟩ => ⟨ordered, within, text, nested, apart⟩,
      fun laid => ⟨laid.ordered, laid.within, laid.text, laid.nested, laid.apart⟩⟩

theorem LaidOutBelow.self (below : root.LaidOutBelow source) : root.LaidOut source :=
  below root .self

theorem LaidOutBelow.of_contains (below : root.LaidOutBelow source)
    (contained : root.Contains node) : node.LaidOutBelow source :=
  fun _ inner => below _ (contained.trans inner)

theorem LaidOutBelow.child (below : root.LaidOutBelow source) (member : node ∈ root.children) :
    node.LaidOutBelow source :=
  below.of_contains (.child .self member)

theorem laidOutBelow_iff {label : String} {named : Bool} {field : Option String} {extent : Extent}
    {text : String} {children : List Node} :
    LaidOutBelow ⟨label, named, field, extent, text, children⟩ source ↔
      LaidOut ⟨label, named, field, extent, text, children⟩ source ∧
        ∀ child ∈ children, child.LaidOutBelow source := by
  rw [LaidOutBelow, forall_contains_iff]
  rfl

mutual

def decideLaidOutBelow (source : String) : (root : Node) → Decidable (root.LaidOutBelow source)
  | ⟨_, _, _, _, _, children⟩ =>
      have := decideAllLaidOutBelow source children
      decidable_of_iff' _ laidOutBelow_iff

def decideAllLaidOutBelow (source : String) :
    (nodes : List Node) → Decidable (∀ node ∈ nodes, node.LaidOutBelow source)
  | [] => isTrue (List.forall_mem_nil _)
  | node :: rest =>
      have := decideLaidOutBelow source node
      have := decideAllLaidOutBelow source rest
      decidable_of_iff' _ List.forall_mem_cons

end

instance (root : Node) (source : String) : Decidable (root.LaidOutBelow source) :=
  decideLaidOutBelow source root

theorem LaidOutBelow.bounds (below : root.LaidOutBelow source) (contained : root.Contains node) :
    root.start ≤ node.start ∧ node.start ≤ node.stop ∧ node.stop ≤ root.stop := by
  induction contained with
  | self => exact ⟨Nat.le_refl _, below.self.ordered, Nat.le_refl _⟩
  | @child parent node parentContained member induction =>
      have nested := (below parent parentContained).nested node member
      have ordered := (below node (.child parentContained member)).ordered
      exact ⟨induction.1.trans nested.1, ordered, nested.2.trans induction.2.2⟩

theorem LaidOut.stop_le_start {left right : Node} (laid : node.LaidOut source)
    (listed : [left, right].Sublist node.children) : left.stop ≤ right.start := by
  have apart := laid.apart.sublist listed
  rwa [List.pairwise_pair] at apart

theorem laidOut_of_parted (front back : String) (parted : source = front ++ node.text ++ back)
    (start : node.start = front.length) (stop : node.stop = front.length + node.text.length)
    (nested : ∀ child ∈ node.children, node.start ≤ child.start ∧ child.stop ≤ node.stop)
    (apart : node.children.Pairwise fun left right => left.stop ≤ right.start) :
    node.LaidOut source where
  ordered := by omega
  within := by
    rw [parted, String.length_append, String.length_append]
    omega
  text := by rw [start, stop, parted, Text.slice_middle]
  nested := nested
  apart := apart

theorem LaidOut.length_text (laid : node.LaidOut source) :
    node.text.length = node.stop - node.start := by
  rw [laid.text, Text.length_slice_natCast laid.within]

theorem LaidOut.slice_text {first last : Nat} (laid : node.LaidOut source)
    (front : node.start ≤ first) (ordered : first ≤ last) (back : last ≤ node.stop) :
    Text.slice node.text (first - node.start) (last - node.start) =
      Text.slice source first last := by
  rw [laid.text]
  exact Text.slice_slice front ordered back

theorem LaidOutBelow.text_child (below : root.LaidOutBelow source) (member : node ∈ root.children) :
    node.text = Text.slice root.text (node.start - root.start) (node.stop - root.start) := by
  have laid := below.child member |>.self
  have nested := below.self.nested node member
  rw [below.self.slice_text nested.1 laid.ordered nested.2, laid.text]

/-! ## What is cut out of a node -/

/-- A string literal has room for its content between two children, or between two quotes. -/
def HasRoom (node : Node) : Prop :=
  2 ≤ node.children.length ∨ 2 ≤ node.text.length

theorem exists_content_between (node : Node) (several : 2 ≤ node.children.length) :
    ∃ opening closing, [opening, closing].Sublist node.children ∧
      node.contentBounds = (↑opening.stop, ↑closing.start) ∧
      ∀ value, node.stringContent? = some value →
        value = Text.slice node.text (opening.stop - node.start) (closing.start - node.start) := by
  rcases node with ⟨label, named, field, extent, text, children⟩
  match children with
  | [] => cases several
  | [_] => cases Nat.lt_irrefl 1 several
  | opening :: second :: rest =>
      have closes := List.getLast_mem (List.cons_ne_nil second rest)
      refine ⟨opening, (second :: rest).getLast (List.cons_ne_nil second rest),
        (List.singleton_sublist.mpr closes).cons_cons opening, rfl, ?_⟩
      intro value content
      rw [stringContent?] at content
      split at content
      · cases content
      · exact (Option.some.inj content).symm

theorem content_of_few_children (node : Node) (few : node.children.length < 2) :
    node.contentBounds = ((node.start : Int) + 1, (node.stop : Int) - 1) ∧
      ∀ value, node.stringContent? = some value → value = Text.slice node.text 1 (-1) := by
  rcases node with ⟨label, named, field, extent, text, children⟩
  match children with
  | [] | [_] =>
      refine ⟨rfl, ?_⟩
      intro value content
      rw [stringContent?] at content
      split at content
      · cases content
      · exact (Option.some.inj content).symm
  | _ :: _ :: _ => exact absurd few (by simp)

/-- The content of a string literal with room for it is the stretch of the source at its content
bounds. -/
theorem LaidOutBelow.content_eq (below : node.LaidOutBelow source) {value : String}
    (content : node.stringContent? = some value) (room : node.HasRoom) :
    ∃ start stop : Nat, node.contentBounds = (↑start, ↑stop) ∧ node.start ≤ start ∧
      start ≤ stop ∧ stop ≤ node.stop ∧ value = Text.slice source start stop := by
  have laid := below.self
  by_cases several : 2 ≤ node.children.length
  · rcases node.exists_content_between several with ⟨opening, closing, listed, bounds, cut⟩
    have between := laid.stop_le_start listed
    have openingBounds := below.bounds (.child .self (listed.subset List.mem_cons_self))
    have closingBounds := below.bounds
      (.child .self (listed.subset (List.mem_cons_of_mem opening List.mem_cons_self)))
    refine ⟨opening.stop, closing.start, bounds, by omega, between, by omega, ?_⟩
    rw [cut value content]
    exact laid.slice_text (by omega) between (by omega)
  · rcases node.content_of_few_children (by omega) with ⟨bounds, cut⟩
    have long := room.resolve_left several
    have ordered := laid.ordered
    rw [laid.length_text] at long
    refine ⟨node.start + 1, node.stop - 1, ?_, by omega, by omega, by omega, ?_⟩
    · rw [bounds]
      congr 1
      omega
    · have first : ((node.start + 1 : Nat) : Int) - node.start = (1 : Nat) := by omega
      have last : ((node.stop - 1 : Nat) : Int) - node.start = (node.text.length - 1 : Nat) := by
        rw [laid.length_text]
        omega
      rw [cut value content, Text.slice_one_neg_one,
        ← laid.slice_text (by omega) (by omega) (by omega), first, last]

theorem content_eq_empty (node : Node) {value : String} (content : node.stringContent? = some value)
    (noRoom : ¬node.HasRoom) : value = "" := by
  rw [HasRoom, not_or] at noRoom
  rcases node.content_of_few_children (by omega) with ⟨-, cut⟩
  rw [cut value content, Text.slice_one_neg_one, ← String.toList_inj, Text.toList_slice_natCast,
    List.drop_of_length_le]
  · rfl
  · rw [List.length_take]
    omega

/-- The complement of a query is written with the source around the name of its method. -/
theorem LaidOutBelow.withComplement_eq (below : node.LaidOutBelow source) {method : Node}
    {other : String} (fills : node.child? "method" = some method)
    (complement : complement? method.text = some other) :
    node.withComplement = Text.slice source node.start method.start ++ other ++
      Text.slice source method.stop node.stop := by
  have laid := below.self
  have bounds := below.bounds (.child .self (List.mem_of_find?_eq_some fills))
  have front := laid.slice_text (Nat.le_refl node.start) bounds.1 (by omega)
  have back := laid.slice_text (by omega) bounds.2.2 (Nat.le_refl node.stop)
  have start : (node.start : Int) - node.start = 0 := Int.sub_self _
  have stop : (node.stop : Int) - node.start = node.text.length := by
    rw [laid.length_text, Int.ofNat_sub laid.ordered]
  rw [start] at front
  rw [stop] at back
  simp only [withComplement, fills, complement, front, back]

end Node

end FormulaLint
