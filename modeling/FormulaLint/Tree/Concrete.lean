import FormulaLint.Text.Slice
import FormulaLint.Tree.Position
import FormulaLint.Tree.Walk

/-! From the concrete tree that a grammar delivers to the syntax tree that rules inspect. -/

namespace FormulaLint

/-! ## Concrete trees -/

structure ConcreteNode where
  label : String
  named : Bool
  field : Option String
  start : Nat
  stop : Nat
  children : List ConcreteNode
  deriving Repr

structure ConcreteTree where
  root : ConcreteNode
  hasError : Bool
  deriving Repr

/-! ## Conversion

The nodes are made one after another, each with a link to its parent and links to its children. The
tree is read off these links. -/

namespace Extent

def ofOffsets (chars : List Char) (start stop : Nat) : Extent :=
  let first := Text.lineAndColumn chars start
  let last := Text.lineAndColumn chars stop
  ⟨first.1, first.2, last.1, last.2, start, stop⟩

end Extent

/-- A node as it is made. Its parent and its children are given by their numbers. -/
structure LinkedNode where
  label : String
  named : Bool
  field : Option String
  extent : Extent
  text : String
  parent : Option Nat
  children : List Nat
  deriving Repr

namespace ConcreteNode

mutual

/-- Convert a node with all that is below it. The nodes are numbered in the order in which they are
made, from the given number on. There are none if some offset lies outside the text. -/
def link? (source : String) (parent : Option Nat) (number : Nat) :
    ConcreteNode → Option (List LinkedNode)
  | ⟨label, named, field, start, stop, children⟩ => do
      let start ← Text.charOffset source.toList start
      let stop ← Text.charOffset source.toList stop
      let (numbers, below) ← linkAll? source number (number + 1) children
      let linked : LinkedNode := {
        label := label
        named := named
        field := field
        extent := Extent.ofOffsets source.toList start stop
        text := Text.slice source start stop
        parent := parent
        children := numbers }
      return linked :: below

def linkAll? (source : String) (parent next : Nat) :
    List ConcreteNode → Option (List Nat × List LinkedNode)
  | [] => some ([], [])
  | node :: rest => do
      let nodes ← node.link? source (some parent) next
      let (numbers, others) ← linkAll? source parent (next + nodes.length) rest
      return (next :: numbers, nodes ++ others)

end

end ConcreteNode

/-- The tree below the node with a number, at most so many generations deep. -/
def LinkedNode.tree? (nodes : Array LinkedNode) : (depth : Nat) → Nat → Option Node
  | 0, _ => none
  | depth + 1, number => do
      let linked ← nodes[number]?
      let children ← linked.children.mapM (tree? nodes depth)
      return ⟨linked.label, linked.named, linked.field, linked.extent, linked.text, children⟩

end FormulaLint
