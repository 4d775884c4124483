import FormulaLint.Proofs.LaidOut
import Mathlib.Data.List.Forall2

/-! The syntax tree of a formula as the image of its concrete tree. If the bytes of the concrete
nodes are stretches of whole characters, nested in one another and in order, then the tree can be
made, and its nodes are those same stretches counted in characters. -/

namespace FormulaLint

namespace Text

/-! ## Bytes and characters -/

/-- So many bytes lead to an offset if the characters in front of it take up just these. -/
def LeadsTo (chars : List Char) (bytes offset : Nat) : Prop :=
  offset ≤ chars.length ∧ byteLength (chars.take offset) = bytes

/-- So many bytes end between two characters, or at an end of the text. -/
def Boundary (chars : List Char) (bytes : Nat) : Prop :=
  ∃ offset, LeadsTo chars bytes offset

variable {chars : List Char} {bytes laterBytes offset later : Nat}

instance : Decidable (Boundary chars bytes) :=
  decidable_of_iff
    ((List.range (chars.length + 1)).any fun offset => byteLength (chars.take offset) == bytes) (by
      simp only [Boundary, LeadsTo, List.any_eq_true, List.mem_range, Nat.lt_succ_iff,
        beq_iff_eq])

theorem LeadsTo.charOffset_eq (leads : LeadsTo chars bytes offset) :
    charOffset chars bytes = some offset := by
  have found := charOffset_byteLength (chars.take offset) (chars.drop offset)
  rwa [List.take_append_drop, leads.2, List.length_take, Nat.min_eq_left leads.1] at found

theorem LeadsTo.le (leads : LeadsTo chars bytes offset)
    (leadsLater : LeadsTo chars laterBytes later) (ordered : bytes ≤ laterBytes) :
    offset ≤ later := by
  by_contra beyond
  have parts : chars.take offset = chars.take later ++ (chars.take offset).drop later := by
    have front : (chars.take offset).take later = chars.take later := by
      rw [List.take_take, Nat.min_eq_left (by omega)]
    rw [← front, List.take_append_drop]
  have more := length_le_byteLength ((chars.take offset).drop later)
  have total := congrArg byteLength parts
  rw [byteLength_append, leads.2, leadsLater.2] at total
  rw [List.length_drop, List.length_take, Nat.min_eq_left leads.1] at more
  omega

/-! ## Lines and columns -/

/-- A line and a column are those of an offset if in front of it stand the lines before that line
and so many characters of the line itself. -/
def StandsAt (chars : List Char) (line column offset : Nat) : Prop :=
  ∃ whole part, chars.take offset = whole ++ part ∧ EndsLine whole ∧ '\n' ∉ part ∧
    whole.count '\n' + 1 = line ∧ part.length = column

/-- A line and a column designate an offset of a text if they are those of this offset and of no
other one. -/
def Designates (chars : List Char) (line column offset : Nat) : Prop :=
  ∀ other, (other ≤ chars.length ∧ StandsAt chars line column other) ↔ other = offset

theorem EndsLine.eq_of_isPrefix {whole longer : List Char} (ends : EndsLine longer)
    (front : whole <+: longer) (count : whole.count '\n' = longer.count '\n') : whole = longer := by
  rcases front with ⟨rest, rfl⟩
  rw [List.count_append] at count
  have none : rest.count '\n' = 0 := by omega
  rcases List.eq_nil_or_concat rest with rfl | ⟨body, last, rfl⟩
  · exact (List.append_nil whole).symm
  · rcases ends with empty | ⟨front, equal⟩
    · simp at empty
    · rw [List.concat_eq_append, ← List.append_assoc] at equal
      have feed : last = '\n' := List.singleton_inj.mp (List.append_inj_right' equal rfl)
      rw [feed, List.concat_eq_append, List.count_append] at none
      simp at none

theorem StandsAt.eq {line column : Nat} (stands : StandsAt chars line column offset)
    (standsLater : StandsAt chars line column later) (within : offset ≤ chars.length)
    (withinLater : later ≤ chars.length) : offset = later := by
  rcases stands with ⟨whole, part, front, ends, -, count, length⟩
  rcases standsLater with ⟨other, otherPart, otherFront, otherEnds, -, otherCount, otherLength⟩
  have wholePrefix : whole <+: chars :=
    (List.prefix_append whole part).trans (front ▸ List.take_prefix offset chars)
  have otherPrefix : other <+: chars :=
    (List.prefix_append other otherPart).trans (otherFront ▸ List.take_prefix later chars)
  have same : whole = other := by
    rcases List.prefix_or_prefix_of_prefix wholePrefix otherPrefix with shorter | longer
    · exact otherEnds.eq_of_isPrefix shorter (by omega)
    · exact (ends.eq_of_isPrefix longer (by omega)).symm
  have total := congrArg List.length front
  have otherTotal := congrArg List.length otherFront
  rw [List.length_take, Nat.min_eq_left within, List.length_append] at total
  rw [List.length_take, Nat.min_eq_left withinLater, List.length_append] at otherTotal
  rw [same] at total
  omega

private theorem designates_lineAndColumn (within : offset ≤ chars.length) :
    Designates chars (lineAndColumn chars offset).1 (lineAndColumn chars offset).2 offset := by
  have stands : StandsAt chars (lineAndColumn chars offset).1 (lineAndColumn chars offset).2
      offset := by
    rcases exists_take_eq chars offset with ⟨whole, column, front, length, ends, plain⟩
    have total := congrArg List.length front
    rw [List.length_take, Nat.min_eq_left within, List.length_append] at total
    rw [lineAndColumn_eq]
    refine ⟨whole, column, front, ends, plain, ?_, ?_⟩
    · rw [front, List.count_append, List.count_eq_zero.mpr plain, Nat.add_zero]
    · show column.length = offset - lineStart chars offset
      omega
  intro other
  constructor
  · rintro ⟨otherWithin, otherStands⟩
    exact otherStands.eq stands otherWithin within
  · rintro rfl
    exact ⟨within, stands⟩

end Text

/-! ## Concrete trees in their text -/

namespace ConcreteNode

inductive Contains (root : ConcreteNode) : ConcreteNode → Prop where
  | self : root.Contains root
  | child {parent node : ConcreteNode} :
      root.Contains parent → node ∈ parent.children → root.Contains node

variable {root concrete : ConcreteNode} {source : String}

theorem Contains.trans {inner : ConcreteNode} (outer : root.Contains concrete)
    (below : concrete.Contains inner) : root.Contains inner := by
  induction below with
  | self => exact outer
  | child _ member induction => exact .child induction member

/-- A concrete node is laid out in a text if its bytes are whole characters of it and its children
are nested in it, in order and apart from one another. -/
structure LaidOut (concrete : ConcreteNode) (source : String) : Prop where
  front : Text.Boundary source.toList concrete.start
  back : Text.Boundary source.toList concrete.stop
  ordered : concrete.start ≤ concrete.stop
  nested : ∀ child ∈ concrete.children,
    concrete.start ≤ child.start ∧ child.stop ≤ concrete.stop
  apart : concrete.children.Pairwise fun left right => left.stop ≤ right.start

instance (concrete : ConcreteNode) (source : String) : Decidable (concrete.LaidOut source) :=
  decidable_of_iff (Text.Boundary source.toList concrete.start ∧
      Text.Boundary source.toList concrete.stop ∧ concrete.start ≤ concrete.stop ∧
      (∀ child ∈ concrete.children,
        concrete.start ≤ child.start ∧ child.stop ≤ concrete.stop) ∧
      concrete.children.Pairwise fun left right => left.stop ≤ right.start)
    ⟨fun ⟨front, back, ordered, nested, apart⟩ => ⟨front, back, ordered, nested, apart⟩,
      fun laid => ⟨laid.front, laid.back, laid.ordered, laid.nested, laid.apart⟩⟩

def LaidOutBelow (root : ConcreteNode) (source : String) : Prop :=
  ∀ concrete, root.Contains concrete → concrete.LaidOut source

theorem LaidOutBelow.child (below : root.LaidOutBelow source) (member : concrete ∈ root.children) :
    concrete.LaidOutBelow source :=
  fun inner contained => below inner (Contains.trans (.child .self member) contained)

theorem laidOutBelow_iff {label : String} {named : Bool} {field : Option String}
    {start stop : Nat} {children : List ConcreteNode} :
    LaidOutBelow ⟨label, named, field, start, stop, children⟩ source ↔
      LaidOut ⟨label, named, field, start, stop, children⟩ source ∧
        ∀ child ∈ children, child.LaidOutBelow source := by
  constructor
  · intro below
    exact ⟨below _ .self, fun child member => below.child member⟩
  · rintro ⟨laid, below⟩ concrete contained
    have place : concrete = ⟨label, named, field, start, stop, children⟩ ∨
        ∃ child ∈ children, child.Contains concrete := by
      induction contained with
      | self => exact .inl rfl
      | child _ member induction =>
          rcases induction with rfl | ⟨child, first, contained⟩
          · exact .inr ⟨_, member, .self⟩
          · exact .inr ⟨child, first, .child contained member⟩
    rcases place with rfl | ⟨child, member, contained⟩
    · exact laid
    · exact below child member concrete contained

end ConcreteNode

/-! ## Images -/

/-- A node is the picture of a concrete one if it says the same in characters: where it starts and
ends, on which lines and at which columns, and what is written there. -/
structure Node.Pictures (node : Node) (concrete : ConcreteNode) (source : String) : Prop where
  label : node.label = concrete.label
  named : node.named = concrete.named
  field : node.field = concrete.field
  front : Text.LeadsTo source.toList concrete.start node.start
  back : Text.LeadsTo source.toList concrete.stop node.stop
  text : node.text = Text.slice source node.start node.stop
  first : Text.Designates source.toList node.extent.startLine node.extent.startColumn node.start
  last : Text.Designates source.toList node.extent.endLine node.extent.endColumn node.stop

/-- A tree is the image of a concrete one if it has the same shape and each node is the picture of
the concrete node in its place. -/
inductive ConcreteNode.HasImage (source : String) : ConcreteNode → Node → Prop where
  | node {concrete : ConcreteNode} {node : Node} :
      node.Pictures concrete source →
      List.Forall₂ (HasImage source) concrete.children node.children →
      HasImage source concrete node

namespace ConcreteNode

variable {source : String}

mutual

theorem exists_hasImage : ∀ concrete : ConcreteNode, concrete.LaidOutBelow source →
    ∃ node, concrete.toSyntax? source = some node ∧ HasImage source concrete node
  | ⟨label, named, field, start, stop, children⟩, below => by
      have laid := below _ .self
      rcases laid.front with ⟨first, front⟩
      rcases laid.back with ⟨last, back⟩
      rcases exists_forall₂_hasImage children fun child member => below.child member with
        ⟨nodes, converted, images⟩
      refine ⟨⟨label, named, field, Extent.ofOffsets source.toList first last,
        Text.slice source first last, nodes⟩, ?_, .node ⟨rfl, rfl, rfl, front, back, rfl,
          Text.designates_lineAndColumn front.1, Text.designates_lineAndColumn back.1⟩ images⟩
      rw [toSyntax?, front.charOffset_eq, back.charOffset_eq, converted]
      rfl

theorem exists_forall₂_hasImage : ∀ concretes : List ConcreteNode,
    (∀ concrete ∈ concretes, concrete.LaidOutBelow source) →
      ∃ nodes, toSyntaxAll? source concretes = some nodes ∧
        List.Forall₂ (HasImage source) concretes nodes
  | [], _ => ⟨[], rfl, .nil⟩
  | concrete :: rest, below => by
      rcases List.forall_mem_cons.mp below with ⟨first, later⟩
      rcases exists_hasImage concrete first with ⟨node, made, image⟩
      rcases exists_forall₂_hasImage rest later with ⟨nodes, othersMade, images⟩
      refine ⟨node :: nodes, ?_, .cons image images⟩
      rw [toSyntaxAll?, made, othersMade]
      rfl

end

end ConcreteNode

/-! ## Layout of images -/

section

variable {α β : Type} {related : α → β → Prop} {concretes : List α} {nodes : List β}

theorem exists_mem_of_forall₂ (images : List.Forall₂ related concretes nodes) {node : β}
    (member : node ∈ nodes) : ∃ concrete ∈ concretes, related concrete node := by
  induction images with
  | nil => cases member
  | @cons concrete first concretes nodes image _ induction =>
      rcases List.mem_cons.mp member with rfl | later
      · exact ⟨concrete, List.mem_cons_self, image⟩
      · rcases induction later with ⟨other, otherMember, otherImage⟩
        exact ⟨other, List.mem_cons_of_mem concrete otherMember, otherImage⟩

private theorem pairwise_of_forall₂ {before : α → α → Prop} {imageBefore : β → β → Prop}
    (images : List.Forall₂ related concretes nodes) (ordered : concretes.Pairwise before)
    (carried : ∀ concrete other node otherNode, related concrete node → related other otherNode →
      before concrete other → imageBefore node otherNode) : nodes.Pairwise imageBefore := by
  induction images with
  | nil => exact .nil
  | @cons concrete node concretes nodes image images induction =>
      rcases List.pairwise_cons.mp ordered with ⟨first, later⟩
      refine List.pairwise_cons.mpr ⟨?_, induction later⟩
      intro otherNode member
      rcases exists_mem_of_forall₂ images member with ⟨other, otherMember, otherImage⟩
      exact carried concrete other node otherNode image otherImage (first other otherMember)

end

namespace ConcreteNode.HasImage

variable {source : String} {concrete : ConcreteNode} {node : Node}

private theorem pictures (image : HasImage source concrete node) :
    node.Pictures concrete source := by
  cases image with
  | node pictures _ => exact pictures

theorem children (image : HasImage source concrete node) :
    List.Forall₂ (HasImage source) concrete.children node.children := by
  cases image with
  | node _ images => exact images

private theorem exists_of_contains {root : Node} (image : HasImage source concrete root)
    (contained : root.Contains node) :
    ∃ inner, concrete.Contains inner ∧ HasImage source inner node := by
  induction contained with
  | self => exact ⟨concrete, .self, image⟩
  | child _ member induction =>
      rcases induction with ⟨parent, parentContained, parentImage⟩
      rcases exists_mem_of_forall₂ parentImage.children member with ⟨child, listed, childImage⟩
      exact ⟨child, .child parentContained listed, childImage⟩

private theorem laidOut (image : HasImage source concrete node) (laid : concrete.LaidOut source) :
    node.LaidOut source where
  ordered := image.pictures.front.le image.pictures.back laid.ordered
  within := String.length_toList ▸ image.pictures.back.1
  text := image.pictures.text
  nested := by
    intro child member
    rcases exists_mem_of_forall₂ image.children member with ⟨concreteChild, listed, childImage⟩
    have nested := laid.nested concreteChild listed
    exact ⟨image.pictures.front.le childImage.pictures.front nested.1,
      childImage.pictures.back.le image.pictures.back nested.2⟩
  apart := pairwise_of_forall₂ image.children laid.apart
    fun _ _ _ _ leftImage rightImage apart =>
      leftImage.pictures.back.le rightImage.pictures.front apart

private theorem laidOutBelow {root : Node} (image : HasImage source concrete root)
    (below : concrete.LaidOutBelow source) : root.LaidOutBelow source := by
  intro node contained
  rcases image.exists_of_contains contained with ⟨inner, innerContained, innerImage⟩
  exact innerImage.laidOut (below inner innerContained)

end ConcreteNode.HasImage

/-! ## Formulas from concrete trees -/

/-- A formula depicts a concrete tree if its own tree is an image of it that is laid out in the
source, the nodes that were made for it are linked as the tree has them, and what is cut out of a
node is inside the node. -/
structure Formula.Depicts (formula : Formula) (concrete : ConcreteTree) : Prop where
  hasError : formula.hasError = concrete.hasError
  image : concrete.root.HasImage formula.source formula.root
  laidOut : formula.root.LaidOutBelow formula.source
  childText : ∀ parent, formula.root.Contains parent → ∀ child ∈ parent.children,
    child.text = Text.slice parent.text (child.start - parent.start) (child.stop - parent.start)
  linked : ∃ nodes, concrete.root.link? formula.source none 0 = some nodes ∧
    formula.LinkedBy nodes
  content : ∀ node, formula.root.Contains node → ∀ value, node.stringContent? = some value →
    ∃ start stop : Nat, node.start ≤ start ∧ start ≤ stop ∧ stop ≤ node.stop ∧
      value = Text.slice formula.source start stop ∧
      (node.HasRoom → node.contentBounds = (↑start, ↑stop))
  complement : ∀ node, formula.root.Contains node → ∀ method, node.child? "method" = some method →
    ∀ other, Node.complement? method.text = some other →
      node.start ≤ method.start ∧ method.start ≤ method.stop ∧ method.stop ≤ node.stop ∧
        node.withComplement = Text.slice formula.source node.start method.start ++ other ++
          Text.slice formula.source method.stop node.stop

theorem Node.LaidOutBelow.exists_content {node : Node} {source value : String}
    (below : node.LaidOutBelow source) (content : node.stringContent? = some value) :
    ∃ start stop : Nat, node.start ≤ start ∧ start ≤ stop ∧ stop ≤ node.stop ∧
      value = Text.slice source start stop ∧
      (node.HasRoom → node.contentBounds = (↑start, ↑stop)) := by
  by_cases room : node.HasRoom
  · rcases below.content_eq content room with ⟨start, stop, bounds, front, ordered, back, cut⟩
    exact ⟨start, stop, front, ordered, back, cut, fun _ => bounds⟩
  · have none : Text.slice source node.start node.start = "" := by
      rw [← String.toList_inj, Text.toList_slice_natCast, List.drop_of_length_le]
      · rfl
      · rw [List.length_take]
        omega
    refine ⟨node.start, node.start, Nat.le_refl _, Nat.le_refl _, below.self.ordered, ?_,
      fun has => absurd has room⟩
    rw [none, node.content_eq_empty content room]

theorem Formula.depicts_of_image {formula : Formula} {concrete : ConcreteTree}
    (hasError : formula.hasError = concrete.hasError)
    (made : concrete.root.toSyntax? formula.source = some formula.root)
    (image : concrete.root.HasImage formula.source formula.root)
    (below : concrete.root.LaidOutBelow formula.source) : formula.Depicts concrete := by
  have laidOut := image.laidOutBelow below
  exact {
    hasError
    image
    laidOut
    childText := fun _ contained _ member => (laidOut.of_contains contained).text_child member
    linked := exists_linkedBy made
    content := fun _ contained _ content => (laidOut.of_contains contained).exists_content content
    complement := by
      intro node contained method fills other complement
      have inner := laidOut.of_contains contained
      have bounds := inner.bounds (.child .self (List.mem_of_find?_eq_some fills))
      exact ⟨bounds.1, bounds.2.1, bounds.2.2, inner.withComplement_eq fills complement⟩ }

/-- From a concrete tree that is laid out in a text, a formula with this text can be made, and it
depicts the tree. -/
theorem Formula.exists_depicts {source : String} {concrete : ConcreteTree}
    (below : concrete.root.LaidOutBelow source) :
    ∃ formula, Formula.ofConcrete? source concrete = some formula ∧ formula.source = source ∧
      formula.Depicts concrete := by
  rcases concrete.root.exists_hasImage below with ⟨root, made, image⟩
  refine ⟨⟨source, root, concrete.hasError⟩, ?_, rfl, depicts_of_image rfl made image below⟩
  rw [ofConcrete?_eq, made]
  rfl

def accentedTree : ConcreteTree where
  root := ⟨"program", true, none, 0, 6, [
    ⟨"call", true, none, 0, 6, [
      ⟨"identifier", true, some "method", 0, 1, []⟩,
      ⟨"argument_list", true, some "arguments", 2, 6, [
        ⟨"string", true, none, 2, 6, [
          ⟨"\x22", false, none, 2, 3, []⟩,
          ⟨"string_content", true, none, 3, 5, []⟩,
          ⟨"\x22", false, none, 5, 6, []⟩]⟩]⟩]⟩]⟩
  hasError := false

theorem Formula.exists_depicts_accentedTree :
    accentedTree.root.LaidOutBelow "f \x22é\x22" ∧
      ∃ formula, Formula.ofConcrete? "f \x22é\x22" accentedTree = some formula ∧
        formula.source = "f \x22é\x22" ∧ formula.Depicts accentedTree := by
  have below : accentedTree.root.LaidOutBelow "f \x22é\x22" := by
    simp only [accentedTree, ConcreteNode.laidOutBelow_iff, List.forall_mem_cons,
      List.not_mem_nil, false_implies, implies_true, and_true]
    decide
  exact ⟨below, Formula.exists_depicts below⟩

end FormulaLint
