import FormulaLint.Proofs.TreeWalk
import Mathlib.Data.List.Forall2

/-! The links between the nodes of a converted tree. The tree that is read off them is the one that a
recursion on the concrete tree gives; the parent link of each node leads to the node that it is a
child of, and the ancestors that a walk knows of are those to which the parent links lead. -/

namespace FormulaLint

/-! ## The tree by recursion alone -/

namespace ConcreteNode

mutual

def toSyntax? (source : String) : ConcreteNode → Option Node
  | ⟨label, named, field, start, stop, children⟩ => do
      let start ← Text.charOffset source.toList start
      let stop ← Text.charOffset source.toList stop
      let children ← toSyntaxAll? source children
      return {
        label := label
        named := named
        field := field
        extent := Extent.ofOffsets source.toList start stop
        text := Text.slice source start stop
        children := children }

def toSyntaxAll? (source : String) : List ConcreteNode → Option (List Node)
  | [] => some []
  | node :: rest => do
      let first ← node.toSyntax? source
      let others ← toSyntaxAll? source rest
      return first :: others

end

end ConcreteNode

/-! ## Trees in links -/

namespace LinkedNode

def numbersFrom : Nat → List Node → List Nat
  | _, [] => []
  | next, node :: rest => next :: numbersFrom (next + node.size) rest

/-- What is made for a node under a number, its parent having the other number. -/
def madeFor (parent : Option Nat) (number : Nat) (node : Node) : LinkedNode where
  label := node.label
  named := node.named
  field := node.field
  extent := node.extent
  text := node.text
  parent := parent
  children := numbersFrom (number + 1) node.children

mutual

/-- Under a number stands what is made for a node, and under the numbers that follow what is made for
all nodes below it. -/
def Shows (nodes : List LinkedNode) (parent : Option Nat) (number : Nat) : Node → Prop
  | ⟨label, named, field, extent, text, children⟩ =>
      nodes[number]? = some (madeFor parent number ⟨label, named, field, extent, text, children⟩) ∧
        ShowsAll nodes number (number + 1) children

def ShowsAll (nodes : List LinkedNode) (parent next : Nat) : List Node → Prop
  | [] => True
  | node :: rest =>
      Shows nodes (some parent) next node ∧ ShowsAll nodes parent (next + node.size) rest

end

variable {nodes : List LinkedNode} {parent : Option Nat} {number next : Nat} {node : Node}

theorem shows_iff :
    Shows nodes parent number node ↔
      nodes[number]? = some (madeFor parent number node) ∧
        ShowsAll nodes number (number + 1) node.children := by
  cases node
  rw [Shows]

theorem ShowsAll.exists_number {above : Nat} {children : List Node}
    (shows : ShowsAll nodes above next children) {child : Node} (member : child ∈ children) :
    ∃ number ∈ numbersFrom next children, Shows nodes (some above) number child := by
  induction children generalizing next with
  | nil => simp at member
  | cons first rest induction =>
      rw [ShowsAll] at shows
      rcases List.mem_cons.mp member with rfl | later
      · exact ⟨next, List.mem_cons_self, shows.1⟩
      · obtain ⟨number, listed, found⟩ := induction shows.2 later
        exact ⟨number, List.mem_cons_of_mem next listed, found⟩

theorem ShowsAll.exists_child {above : Nat} {children : List Node}
    (shows : ShowsAll nodes above next children) (listed : number ∈ numbersFrom next children) :
    ∃ child ∈ children, Shows nodes (some above) number child := by
  induction children generalizing next with
  | nil => simp [numbersFrom] at listed
  | cons first rest induction =>
      rw [ShowsAll] at shows
      rcases List.mem_cons.mp listed with rfl | later
      · exact ⟨first, List.mem_cons_self, shows.1⟩
      · obtain ⟨child, member, found⟩ := induction shows.2 later
        exact ⟨child, List.mem_cons_of_mem first member, found⟩

end LinkedNode

namespace ConcreteNode

open LinkedNode (Shows ShowsAll numbersFrom madeFor)

variable {source : String}

mutual

/-- What is made for a node shows its tree, whatever was made before and is made later. -/
theorem exists_link? : ∀ (concrete : ConcreteNode) (parent : Option Nat) (number : Nat)
    {node : Node}, concrete.toSyntax? source = some node →
    ∃ nodes, concrete.link? source parent number = some nodes ∧ nodes.length = node.size ∧
      ∀ front back : List LinkedNode, front.length = number →
        Shows (front ++ nodes ++ back) parent number node
  | ⟨label, named, field, start, stop, children⟩, parent, number, node, made => by
      simp only [toSyntax?, Option.bind_eq_bind, Option.pure_def, Option.bind_eq_some_iff,
        Option.some.injEq] at made
      obtain ⟨first, firstEq, last, lastEq, below, belowMade, rfl⟩ := made
      obtain ⟨others, linked, length, shows⟩ :=
        exists_linkAll? children number (number + 1) belowMade
      refine ⟨madeFor parent number ⟨label, named, field, Extent.ofOffsets source.toList first last,
        Text.slice source first last, below⟩ :: others, ?_, ?_, ?_⟩
      · simp [link?, firstEq, lastEq, linked, madeFor]
      · simp [Node.size, length]
      · intro front back start
        have later := shows (front ++ [madeFor parent number ⟨label, named, field,
          Extent.ofOffsets source.toList first last, Text.slice source first last, below⟩]) back
          (by simp [start])
        rw [List.append_assoc, List.append_assoc, List.singleton_append] at later
        rw [List.append_assoc, List.cons_append, LinkedNode.shows_iff]
        exact ⟨by simp [← start], later⟩

theorem exists_linkAll? : ∀ (concretes : List ConcreteNode) (parent next : Nat)
    {nodes : List Node}, toSyntaxAll? source concretes = some nodes →
    ∃ made, linkAll? source parent next concretes = some (numbersFrom next nodes, made) ∧
      made.length = Node.sizes nodes ∧
      ∀ front back : List LinkedNode, front.length = next →
        ShowsAll (front ++ made ++ back) parent next nodes
  | [], parent, next, nodes, made => by
      cases made
      exact ⟨[], rfl, rfl, fun _ _ _ => trivial⟩
  | concrete :: rest, parent, next, nodes, made => by
      simp only [toSyntaxAll?, Option.bind_eq_bind, Option.pure_def, Option.bind_eq_some_iff,
        Option.some.injEq] at made
      obtain ⟨node, nodeMade, others, othersMade, rfl⟩ := made
      obtain ⟨first, linked, length, shows⟩ := exists_link? concrete (some parent) next nodeMade
      obtain ⟨later, othersLinked, othersLength, othersShow⟩ :=
        exists_linkAll? rest parent (next + node.size) othersMade
      refine ⟨first ++ later, ?_, ?_, ?_⟩
      · simp [linkAll?, linked, length, othersLinked, numbersFrom]
      · simp [Node.sizes, length, othersLength]
      · intro front back start
        have here := shows front (later ++ back) start
        have there := othersShow (front ++ first) back (by simp [start, length])
        rw [ShowsAll]
        simp only [List.append_assoc] at here there ⊢
        exact ⟨here, there⟩

end

mutual

theorem exists_toSyntax? : ∀ (concrete : ConcreteNode) (parent : Option Nat) (number : Nat)
    {nodes : List LinkedNode}, concrete.link? source parent number = some nodes →
    ∃ node, concrete.toSyntax? source = some node
  | ⟨label, named, field, start, stop, children⟩, parent, number, nodes, made => by
      simp only [link?, Option.bind_eq_bind, Option.bind_eq_some_iff] at made
      obtain ⟨first, firstEq, last, lastEq, ⟨numbers, below⟩, linked, -⟩ := made
      obtain ⟨others, othersMade⟩ := exists_toSyntaxAll? children number (number + 1) linked
      simp [toSyntax?, firstEq, lastEq, othersMade]

theorem exists_toSyntaxAll? : ∀ (concretes : List ConcreteNode) (parent next : Nat)
    {made : List Nat × List LinkedNode}, linkAll? source parent next concretes = some made →
    ∃ nodes, toSyntaxAll? source concretes = some nodes
  | [], _, _, _, _ => ⟨[], rfl⟩
  | concrete :: rest, parent, next, made, linked => by
      simp only [linkAll?, Option.bind_eq_bind, Option.bind_eq_some_iff] at linked
      obtain ⟨nodes, first, ⟨numbers, others⟩, later, -⟩ := linked
      obtain ⟨node, nodeMade⟩ := exists_toSyntax? concrete (some parent) next first
      obtain ⟨below, belowMade⟩ := exists_toSyntaxAll? rest parent (next + nodes.length) later
      simp [toSyntaxAll?, nodeMade, belowMade]

end

end ConcreteNode

/-! ## Reading the tree -/

theorem Node.size_eq (node : Node) : node.size = sizes node.children + 1 := by
  cases node
  rw [size]

theorem Node.size_le_sizes {node : Node} {nodes : List Node} (member : node ∈ nodes) :
    node.size ≤ sizes nodes := by
  induction nodes with
  | nil => simp at member
  | cons first rest induction =>
      rw [sizes]
      rcases List.mem_cons.mp member with rfl | later
      · omega
      · have bound := induction later
        omega

namespace LinkedNode

variable {nodes : List LinkedNode} {parent : Option Nat} {number : Nat} {node : Node}

private theorem mapM_numbersFrom {read : Nat → Option Node} {above next : Nat}
    {children : List Node}
    (shows : ShowsAll nodes above next children)
    (reads : ∀ number, ∀ child ∈ children, Shows nodes (some above) number child →
      read number = some child) :
    (numbersFrom next children).mapM read = some children := by
  induction children generalizing next with
  | nil => rfl
  | cons first rest induction =>
      rw [ShowsAll] at shows
      have here := reads next first List.mem_cons_self shows.1
      have later := induction shows.2 fun number child member =>
        reads number child (List.mem_cons_of_mem first member)
      simp [numbersFrom, here, later]

private theorem tree?_of_shows {depth : Nat} (shows : Shows nodes parent number node)
    (enough : node.size ≤ depth) : tree? nodes.toArray depth number = some node := by
  induction depth generalizing parent number node with
  | zero => simp [Node.size_eq] at enough
  | succ depth induction =>
      obtain ⟨stands, below⟩ := shows_iff.mp shows
      have children : (numbersFrom (number + 1) node.children).mapM
          (tree? nodes.toArray depth) = some node.children := by
        apply mapM_numbersFrom below
        intro number child member found
        apply induction found
        have smaller := Node.size_le_sizes member
        rw [Node.size_eq] at enough
        omega
      cases node with
      | mk label named field extent text below =>
          simp [tree?, stands, madeFor, children]

end LinkedNode

theorem Formula.ofConcrete?_eq (source : String) (concrete : ConcreteTree) :
    ofConcrete? source concrete =
      (concrete.root.toSyntax? source).map fun root => ⟨source, root, concrete.hasError⟩ := by
  rw [ofConcrete?]
  cases made : concrete.root.toSyntax? source with
  | none =>
      cases linked : concrete.root.link? source none 0 with
      | none => rfl
      | some nodes =>
          obtain ⟨node, found⟩ := concrete.root.exists_toSyntax? none 0 linked
          simp [made] at found
  | some root =>
      obtain ⟨nodes, linked, length, shows⟩ := concrete.root.exists_link? none 0 made
      have whole := shows [] [] rfl
      rw [List.nil_append, List.append_nil] at whole
      simp [linked, LinkedNode.tree?_of_shows whole (Nat.le_of_eq length.symm)]

/-! ## Parents -/

namespace LinkedNode

variable {nodes : List LinkedNode}

def IsChildOf (nodes : List LinkedNode) (number holder : Nat) : Prop :=
  ∃ linked : LinkedNode, nodes[holder]? = some linked ∧ number ∈ linked.children

mutual

/-- Under each number that belongs to a tree some node of the tree is shown, linked to the node that
it is a child of. -/
theorem exists_shown : ∀ {node : Node} {parent : Option Nat} {number place : Nat},
    Shows nodes parent number node → number ≤ place → place < number + node.size →
    ∃ above inner, Shows nodes above place inner ∧
      (place = number ∧ above = parent ∨
        ∃ holder, above = some holder ∧ IsChildOf nodes place holder)
  | ⟨label, named, field, extent, text, children⟩, parent, number, place, shows, front, back => by
      obtain ⟨stands, below⟩ := shows_iff.mp shows
      rcases Nat.eq_or_lt_of_le front with rfl | further
      · exact ⟨parent, _, shows, .inl ⟨rfl, rfl⟩⟩
      · rw [Node.size_eq] at back
        obtain ⟨above, inner, shown, linked⟩ := exists_shownBelow below further (by omega)
        rcases linked with ⟨rfl, listed⟩ | linked
        · exact ⟨_, inner, shown, .inr ⟨number, rfl, _, stands, listed⟩⟩
        · exact ⟨above, inner, shown, .inr linked⟩

theorem exists_shownBelow : ∀ {children : List Node} {holder next place : Nat},
    ShowsAll nodes holder next children → next ≤ place → place < next + Node.sizes children →
    ∃ above inner, Shows nodes above place inner ∧
      (above = some holder ∧ place ∈ numbersFrom next children ∨
        ∃ other, above = some other ∧ IsChildOf nodes place other)
  | [], _, _, _, _, front, back => by
      rw [Node.sizes] at back
      omega
  | child :: rest, holder, next, place, shows, front, back => by
      rw [ShowsAll] at shows
      rw [Node.sizes] at back
      rw [numbersFrom]
      by_cases inFirst : place < next + child.size
      · obtain ⟨above, inner, shown, linked⟩ := exists_shown shows.1 front inFirst
        rcases linked with ⟨rfl, rfl⟩ | linked
        · exact ⟨_, inner, shown, .inl ⟨rfl, List.mem_cons_self⟩⟩
        · exact ⟨above, inner, shown, .inr linked⟩
      · obtain ⟨above, inner, shown, linked⟩ :=
          exists_shownBelow shows.2 (Nat.le_of_not_lt inFirst) (by omega)
        rcases linked with ⟨rfl, listed⟩ | linked
        · exact ⟨_, inner, shown, .inl ⟨rfl, List.mem_cons_of_mem next listed⟩⟩
        · exact ⟨above, inner, shown, .inr linked⟩

end

/-- The nodes that the parent links lead to, from the one with a number upwards. -/
inductive LeadsUp (nodes : List LinkedNode) : Option Nat → List Node → Prop where
  | top : LeadsUp nodes none []
  | parent {above : Option Nat} {number : Nat} {node : Node} {further : List Node} :
      Shows nodes above number node → LeadsUp nodes above further →
      LeadsUp nodes (some number) (node :: further)

end LinkedNode

open LinkedNode (Shows LeadsUp IsChildOf)

def Site.StandsIn (nodes : List LinkedNode) (site : Site) : Prop :=
  ∃ above number, Shows nodes above number site.node ∧ LeadsUp nodes above site.ancestors

/-- The nodes of a formula are linked: all of them, named or not, are made for its tree, one for
each; the parent link of every child leads to the node that has it as a child, and only the root has
none; and the ancestors of a site on the walk are those to which the parent links lead. -/
structure Formula.LinkedBy (formula : Formula) (nodes : List LinkedNode) : Prop where
  shows : Shows nodes none 0 formula.root
  length : nodes.length = formula.root.size
  down : ∀ number holder : Nat, IsChildOf nodes number holder →
    ∃ linked : LinkedNode, nodes[number]? = some linked ∧ linked.parent = some holder
  up : ∀ (number : Nat) (linked : LinkedNode), nodes[number]? = some linked →
    match linked.parent with
    | none => number = 0
    | some holder => IsChildOf nodes number holder
  ancestors : ∀ site ∈ formula.walk, site.StandsIn nodes

theorem Formula.standsIn_of_mem_walk {formula : Formula} {nodes : List LinkedNode}
    (shows : Shows nodes none 0 formula.root) {site : Site} (met : site ∈ formula.walk) :
    site.StandsIn nodes := by
  refine Site.forall_mem_walkAll ?_ ?_ site met
  · rintro outer ⟨above, number, shown, leads⟩ inner entered
    obtain ⟨child, member, rfl⟩ := List.mem_map.mp entered
    obtain ⟨-, below⟩ := LinkedNode.shows_iff.mp shown
    obtain ⟨place, -, childShown⟩ := below.exists_number (List.mem_filter.mp member).1
    exact ⟨some number, place, childShown, .parent shown leads⟩
  · intro site member
    cases List.mem_singleton.mp member
    exact ⟨none, 0, shows, .top⟩

theorem Formula.linkedBy_of_shows {formula : Formula} {nodes : List LinkedNode}
    (shows : Shows nodes none 0 formula.root) (length : nodes.length = formula.root.size) :
    formula.LinkedBy nodes := by
  have shown {number : Nat} {linked : LinkedNode} (stands : nodes[number]? = some linked) :
      ∃ above inner, Shows nodes above number inner ∧
        (number = 0 ∧ above = none ∨
          ∃ holder, above = some holder ∧ IsChildOf nodes number holder) := by
    obtain ⟨within, -⟩ := List.getElem?_eq_some_iff.mp stands
    exact LinkedNode.exists_shown shows (Nat.zero_le number) (by omega)
  refine ⟨shows, length, ?_, ?_, fun site met => standsIn_of_mem_walk shows met⟩
  · rintro number holder ⟨linked, stands, listed⟩
    obtain ⟨above, inner, found, -⟩ := shown stands
    obtain ⟨same, below⟩ := LinkedNode.shows_iff.mp found
    cases stands.symm.trans same
    obtain ⟨node, -, childShown⟩ := below.exists_child listed
    exact ⟨_, (LinkedNode.shows_iff.mp childShown).1, rfl⟩
  · intro number linked stands
    obtain ⟨above, inner, found, placed⟩ := shown stands
    obtain ⟨same, -⟩ := LinkedNode.shows_iff.mp found
    cases stands.symm.trans same
    rcases placed with ⟨root, rfl⟩ | ⟨holder, rfl, child⟩
    · exact root
    · exact child

theorem Formula.exists_linkedBy {formula : Formula} {concrete : ConcreteNode}
    (made : concrete.toSyntax? formula.source = some formula.root) :
    ∃ nodes, concrete.link? formula.source none 0 = some nodes ∧ formula.LinkedBy nodes := by
  obtain ⟨nodes, linked, length, shows⟩ := concrete.exists_link? none 0 made
  have whole := shows [] [] rfl
  rw [List.nil_append, List.append_nil] at whole
  exact ⟨nodes, linked, linkedBy_of_shows whole length⟩

end FormulaLint
