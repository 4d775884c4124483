import FormulaLint.Tree.Node

/-! The walk over a tree: a node, then the walks of its named children in order. Each node is met
together with the nodes that enclose it. -/

namespace FormulaLint

/-- A node and the nodes around it, the nearest first. -/
structure Site where
  node : Node
  ancestors : List Node
  deriving Repr

namespace Site

def ofRoot (root : Node) : Site :=
  ⟨root, []⟩

def parent? (site : Site) : Option Node :=
  site.ancestors.head?

def below (site : Site) : List Site :=
  site.node.namedChildren.map fun child => ⟨child, site.node :: site.ancestors⟩

def totalSize (sites : List Site) : Nat :=
  Node.sizes (sites.map (·.node))

end Site

namespace Node

theorem sizes_append (left right : List Node) :
    sizes (left ++ right) = sizes left + sizes right := by
  induction left with
  | nil => simp [sizes]
  | cons head tail induction => simp [sizes, induction, Nat.add_assoc]

theorem sizes_filter_le (keep : Node → Bool) (nodes : List Node) :
    sizes (nodes.filter keep) ≤ sizes nodes := by
  induction nodes with
  | nil => simp
  | cons head tail induction =>
      rw [List.filter_cons]
      split <;> simp only [sizes] <;> omega

theorem sizes_namedChildren_lt (node : Node) : sizes node.namedChildren < node.size := by
  obtain ⟨label, named, field, extent, text, children⟩ := node
  have bound := sizes_filter_le (·.named) children
  simp only [namedChildren, size]
  omega

end Node

namespace Site

theorem below_nodes (site : Site) : site.below.map (·.node) = site.node.namedChildren := by
  simp [below, Function.comp_def]

def walkAll : List Site → List Site
  | [] => []
  | site :: waiting => site :: walkAll (site.below ++ waiting)
termination_by sites => totalSize sites
decreasing_by
  simp only [totalSize, List.map_append, List.map_cons, below_nodes, Node.sizes_append,
    Node.sizes]
  have smaller := Node.sizes_namedChildren_lt site.node
  omega

/-! ## The same order, by recursion on the tree -/

mutual

/-- A node, then for each named child in turn everything that child leads to. -/
def preorder (ancestors : List Node) : Node → List Site
  | ⟨label, named, field, extent, text, children⟩ =>
      let node : Node := ⟨label, named, field, extent, text, children⟩
      ⟨node, ancestors⟩ :: preorderNamed (node :: ancestors) children

def preorderNamed (ancestors : List Node) : List Node → List Site
  | [] => []
  | child :: rest =>
      if child.named then preorder ancestors child ++ preorderNamed ancestors rest
      else preorderNamed ancestors rest

end

end Site

namespace Node

def walk (root : Node) : List Site :=
  Site.walkAll [Site.ofRoot root]

end Node

end FormulaLint
