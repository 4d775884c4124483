import FormulaLint.Formula

/-! The walk meets the sites of a tree in the order of the recursion on the tree, each of them
linked up to the root. -/

namespace FormulaLint

namespace Site

private theorem preorderNamed_eq (ancestors : List Node) (children : List Node) :
    preorderNamed ancestors children =
      (children.filter (·.named)).flatMap (preorder ancestors) := by
  induction children with
  | nil => rw [preorderNamed, List.filter_nil, List.flatMap_nil]
  | cons child rest induction =>
      rw [preorderNamed, List.filter_cons]
      split
      · rw [List.flatMap_cons, induction]
      · exact induction

/-- A site comes first, then the sites of its named children with all that is below them. -/
theorem preorder_eq (site : Site) :
    preorder site.ancestors site.node =
      site :: site.below.flatMap fun child => preorder child.ancestors child.node := by
  rcases site with ⟨⟨label, named, field, extent, text, children⟩, ancestors⟩
  rw [preorder, preorderNamed_eq, below, List.flatMap_map]
  rfl

theorem walkAll_eq (sites : List Site) :
    walkAll sites = sites.flatMap fun site => preorder site.ancestors site.node := by
  induction sites using walkAll.induct with
  | case1 => rw [walkAll, List.flatMap_nil]
  | case2 site waiting induction =>
      rw [walkAll, induction, List.flatMap_append, List.flatMap_cons, preorder_eq site,
        List.cons_append]

/-! ## Sites that are met -/

/-- A site is linked up to the root if its ancestors lead there, each as the parent of the one in
front of it. -/
inductive Linked (root : Node) : Site → Prop where
  | root : Linked root (ofRoot root)
  | child {site : Site} {child : Node} :
      Linked root site → child ∈ site.node.children →
      Linked root ⟨child, site.node :: site.ancestors⟩

/-- What holds of the sites on the list, and goes over to the sites of named children, holds of all
sites that are met. -/
theorem forall_mem_walkAll {property : Site → Prop} {sites : List Site}
    (below : ∀ site, property site → ∀ inner ∈ site.below, property inner)
    (all : ∀ site ∈ sites, property site) : ∀ site ∈ walkAll sites, property site := by
  induction sites using walkAll.induct with
  | case1 =>
      rw [walkAll]
      exact all
  | case2 site waiting induction =>
      rcases List.forall_mem_cons.mp all with ⟨first, later⟩
      rw [walkAll]
      refine List.forall_mem_cons.mpr ⟨first, induction ?_⟩
      intro inner member
      rcases List.mem_append.mp member with entered | waits
      · exact below site first inner entered
      · exact later inner waits

private theorem linked_of_mem_walkAll {root : Node} {sites : List Site}
    (linked : ∀ site ∈ sites, Linked root site) :
    ∀ site ∈ walkAll sites, Linked root site := by
  refine forall_mem_walkAll ?_ linked
  intro site reached inner entered
  rcases List.mem_map.mp entered with ⟨child, named, rfl⟩
  exact .child reached (List.mem_filter.mp named).1

private theorem mem_walkAll_of_mem {sites : List Site} {site : Site} (member : site ∈ sites) :
    site ∈ walkAll sites := by
  rw [walkAll_eq]
  refine List.mem_flatMap.mpr ⟨site, member, ?_⟩
  rw [preorder_eq]
  exact List.mem_cons_self

theorem mem_walkAll_of_mem_below {sites : List Site} {site inner : Site}
    (met : site ∈ walkAll sites) (member : inner ∈ site.below) : inner ∈ walkAll sites := by
  induction sites using walkAll.induct with
  | case1 =>
      rw [walkAll] at met
      cases met
  | case2 first waiting induction =>
      rw [walkAll] at met ⊢
      rcases List.mem_cons.mp met with rfl | later
      · exact List.mem_cons_of_mem _ (mem_walkAll_of_mem (List.mem_append_left waiting member))
      · exact List.mem_cons_of_mem _ (induction later)

end Site

namespace Node

theorem walk_eq_preorder (root : Node) : root.walk = Site.preorder [] root := by
  rw [Node.walk, Site.walkAll_eq, List.flatMap_singleton]
  rfl

theorem linked_of_mem_walk {root : Node} {site : Site} (met : site ∈ root.walk) :
    Site.Linked root site :=
  Site.linked_of_mem_walkAll (List.forall_mem_singleton.mpr .root) site met

theorem mem_walk_of_named {root : Node} {site : Site} {child : Node} (met : site ∈ root.walk)
    (member : child ∈ site.node.children) (named : child.named = true) :
    ⟨child, site.node :: site.ancestors⟩ ∈ root.walk :=
  Site.mem_walkAll_of_mem_below met
    (List.mem_map_of_mem (List.mem_filter.mpr ⟨member, named⟩))

end Node

end FormulaLint
