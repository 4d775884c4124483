import FormulaLint.Proofs.RuleDrafts

/-! The order of the walk. The loop over a stack of sites comes to an end and has then met what the
recursion on the tree lists. There is one site for each path through named children, and the sites
are met in the order of their paths. Where nodes are nested in one another and in order, no site
starts in front of one that is met before it. -/

namespace FormulaLint

namespace Site

variable {site : Site} {sites stack met : List Site}

/-! ## The loop -/

/-- A stack of sites, with its top at the end, is worked off. The top is taken away and met, and the
sites of its named children are put on in reverse, until no site is left. -/
inductive WorksOff : List Site → List Site → Prop where
  | done : WorksOff [] []
  | turn {stack met : List Site} {site : Site} :
      WorksOff (stack ++ site.below.reverse) met → WorksOff (stack ++ [site]) (site :: met)

private theorem worksOff_reverse (sites : List Site) : WorksOff sites.reverse (walkAll sites) := by
  induction sites using walkAll.induct with
  | case1 =>
      rw [walkAll]
      exact .done
  | case2 site waiting induction =>
      rw [List.reverse_append] at induction
      rw [walkAll, List.reverse_cons]
      exact .turn induction

/-- Every stack is worked off in the end, and what is met is the walk from its top down. -/
theorem worksOff_iff : WorksOff stack met ↔ met = walkAll stack.reverse := by
  constructor
  · intro works
    induction works with
    | done => rw [List.reverse_nil, walkAll]
    | turn _ induction =>
        rw [List.reverse_append, List.reverse_reverse] at induction
        rw [List.reverse_concat, walkAll, induction]
  · rintro rfl
    have works := worksOff_reverse stack.reverse
    rwa [List.reverse_reverse] at works

/-! ## The walk of a child -/

private theorem named_of_mem_below {inner : Site} (entered : inner ∈ site.below) :
    inner.node.named = true := by
  rcases List.mem_map.mp entered with ⟨child, named, rfl⟩
  exact (List.mem_filter.mp named).2

def under (outer : List Node) (site : Site) : Site :=
  ⟨site.node, site.ancestors ++ outer⟩

private theorem below_under (outer : List Node) (site : Site) :
    (site.under outer).below = site.below.map (under outer) := by
  simp [below, under]

private theorem walkAll_map_under (outer : List Node) (sites : List Site) :
    walkAll (sites.map (under outer)) = (walkAll sites).map (under outer) := by
  induction sites using walkAll.induct with
  | case1 => simp [walkAll]
  | case2 site waiting induction =>
      rw [List.map_append, ← below_under] at induction
      rw [List.map_cons, walkAll, walkAll, List.map_cons, induction]

end Site

/-- A node is met first, then each of its named children in turn with its own walk. -/
theorem Node.walk_eq_cons (node : Node) :
    node.walk = Site.ofRoot node ::
      node.namedChildren.flatMap fun child => child.walk.map (Site.under [node]) := by
  have childWalk (child : Node) : child.walk.map (Site.under [node]) =
      Site.preorder [node] child := by
    rw [Node.walk, ← Site.walkAll_map_under, List.map_singleton, Site.walkAll_eq,
      List.flatMap_singleton]
    rfl
  have recursion := Site.preorder_eq (Site.ofRoot node)
  rw [Site.below, List.flatMap_map] at recursion
  simp only [childWalk]
  rw [Node.walk_eq_preorder]
  exact recursion

/-! ## Paths -/

/-- The site that a path leads to. Each step of a path is the place of a child among its siblings,
and leads on if the child is named. -/
def Site.at? (site : Site) : List Nat → Option Site
  | [] => some site
  | place :: path =>
      site.node.children[place]?.bind fun child =>
        if child.named then Site.at? ⟨child, site.node :: site.ancestors⟩ path else none

theorem Site.at?_append (site : Site) (path further : List Nat) :
    site.at? (path ++ further) = (site.at? path).bind (·.at? further) := by
  induction path generalizing site with
  | nil => rfl
  | cons place path induction =>
      rw [List.cons_append, at?, at?, Option.bind_assoc]
      congr 1
      funext child
      split
      · exact induction _
      · rfl

mutual

def Node.paths : Node → List (List Nat)
  | ⟨_, _, _, _, _, children⟩ => [] :: Node.pathsFrom 0 children

def Node.pathsFrom (place : Nat) : List Node → List (List Nat)
  | [] => []
  | child :: rest =>
      if child.named then child.paths.map (place :: ·) ++ Node.pathsFrom (place + 1) rest
      else Node.pathsFrom (place + 1) rest

end

namespace Node

variable {place : Nat} {path : List Nat} {nodes : List Node} {child : Node}

theorem paths_eq (node : Node) : node.paths = [] :: pathsFrom 0 node.children := by
  rcases node with ⟨label, named, field, extent, text, children⟩
  rw [paths]

theorem pathsFrom_eq (place : Nat) (nodes : List Node) :
    pathsFrom place nodes = ((nodes.zipIdx place).filter (·.1.named)).flatMap fun entry =>
      entry.1.paths.map (entry.2 :: ·) := by
  induction nodes generalizing place with
  | nil => rfl
  | cons child rest induction =>
      rw [pathsFrom, List.zipIdx_cons, List.filter_cons]
      split
      · rw [List.flatMap_cons, induction]
      · exact induction (place + 1)

private theorem mem_pathsFrom (stands : nodes[place]? = some child) (named : child.named = true)
    (member : path ∈ child.paths) : place :: path ∈ pathsFrom 0 nodes := by
  rw [pathsFrom_eq, List.mem_flatMap]
  refine ⟨(child, place), List.mem_filter.mpr ⟨?_, named⟩, List.mem_map_of_mem member⟩
  exact List.mem_zipIdx_iff_getElem?.mpr stands

theorem exists_cons_of_mem_pathsFrom (member : path ∈ pathsFrom place nodes) :
    ∃ later rest, path = later :: rest ∧ place ≤ later := by
  rw [pathsFrom_eq, List.mem_flatMap] at member
  rcases member with ⟨⟨child, later⟩, listed, member⟩
  rcases List.mem_map.mp member with ⟨rest, -, rfl⟩
  exact ⟨later, rest, rfl, List.le_snd_of_mem_zipIdx (List.mem_of_mem_filter listed)⟩

mutual

theorem pairwise_paths : ∀ node : Node, node.paths.Pairwise (· < ·)
  | ⟨_, _, _, _, _, children⟩ => by
      rw [paths]
      refine List.pairwise_cons.mpr ⟨?_, pairwise_pathsFrom 0 children⟩
      intro path member
      rcases exists_cons_of_mem_pathsFrom member with ⟨first, rest, rfl, -⟩
      exact List.nil_lt_cons first rest

theorem pairwise_pathsFrom (place : Nat) : ∀ nodes : List Node,
    (pathsFrom place nodes).Pairwise (· < ·)
  | [] => .nil
  | child :: rest => by
      have later := pairwise_pathsFrom (place + 1) rest
      rw [pathsFrom]
      split
      · refine List.pairwise_append.mpr ⟨?_, later, ?_⟩
        · refine (pairwise_paths child).map (place :: ·) ?_
          intro left right before
          exact List.cons_lt_cons_iff.mpr (.inr ⟨rfl, before⟩)
        · intro left through right behind
          rcases List.mem_map.mp through with ⟨path, -, rfl⟩
          rcases exists_cons_of_mem_pathsFrom behind with ⟨other, path, rfl, further⟩
          exact List.cons_lt_cons_iff.mpr (.inl further)
      · exact later

end

end Node

namespace Site

variable {path : List Nat}

mutual

theorem map_at?_paths (ancestors : List Node) : ∀ node : Node,
    node.paths.map (at? ⟨node, ancestors⟩) = (preorder ancestors node).map some
  | ⟨label, named, field, extent, text, children⟩ => by
      rw [Node.paths, preorder, List.map_cons, List.map_cons]
      congr 1
      exact map_at?_pathsFrom ⟨⟨label, named, field, extent, text, children⟩, ancestors⟩ [] children
        rfl

theorem map_at?_pathsFrom (site : Site) : ∀ front back : List Node,
    site.node.children = front ++ back →
      (Node.pathsFrom front.length back).map site.at? =
        (preorderNamed (site.node :: site.ancestors) back).map some
  | _, [], _ => rfl
  | front, child :: rest, parted => by
      -- The children in `front` have been passed, so their number is the place of the next one.
      have later := map_at?_pathsFrom site (front ++ [child]) rest
        (by rw [parted, List.append_assoc, List.singleton_append])
      rw [List.length_append, List.length_singleton] at later
      rw [Node.pathsFrom, preorderNamed]
      split
      · next named =>
          have through (path : List Nat) : site.at? (front.length :: path) =
              at? ⟨child, site.node :: site.ancestors⟩ path := by
            rw [at?, parted, List.getElem?_append_right (Nat.le_refl _), Nat.sub_self,
              List.getElem?_cons_zero]
            exact if_pos named
          rw [List.map_append, List.map_append, later, List.map_map,
            ← map_at?_paths (site.node :: site.ancestors) child]
          congr 2
          funext path
          exact through path
      · exact later

end

theorem mem_paths_iff (site : Site) :
    path ∈ site.node.paths ↔ (site.at? path).isSome = true := by
  constructor
  · intro member
    have led : site.at? path ∈ site.node.paths.map site.at? := List.mem_map_of_mem member
    rw [map_at?_paths] at led
    rcases List.mem_map.mp led with ⟨inner, -, equal⟩
    rw [← equal]
    rfl
  · intro leads
    induction path generalizing site with
    | nil =>
        rw [Node.paths_eq]
        exact List.mem_cons_self
    | cons place path induction =>
        rcases Option.isSome_iff_exists.mp leads with ⟨inner, leads⟩
        rcases Option.bind_eq_some_iff.mp leads with ⟨child, stands, leads⟩
        split at leads
        · next named =>
            have member := induction _ (Option.isSome_iff_exists.mpr ⟨inner, leads⟩)
            rw [Node.paths_eq]
            exact List.mem_cons_of_mem [] (Node.mem_pathsFrom stands named member)
        · cases leads

end Site

/-! ## Pre-order -/

theorem sublist_of_lt {paths : List (List Nat)} {path other : List Nat}
    (sorted : paths.Pairwise (· < ·)) (member : path ∈ paths) (otherMember : other ∈ paths)
    (before : path < other) : [path, other].Sublist paths := by
  induction sorted with
  | nil => cases member
  | @cons first rest behind _ induction =>
      rcases List.mem_cons.mp otherMember with rfl | otherLater
      · rcases List.mem_cons.mp member with rfl | later
        · exact absurd before (List.lt_irrefl _)
        · exact absurd before (List.lt_asymm (behind path later))
      · rcases List.mem_cons.mp member with rfl | later
        · exact (List.singleton_sublist.mpr otherLater).cons_cons _
        · exact (induction later otherLater).cons first

theorem lt_append {path further : List Nat} (some : further ≠ []) : path < path ++ further := by
  induction path with
  | nil =>
      rcases List.exists_cons_of_ne_nil some with ⟨first, rest, rfl⟩
      exact List.nil_lt_cons first rest
  | cons place path induction => exact List.cons_lt_cons_iff.mpr (.inr ⟨rfl, induction⟩)

/-- Sites are listed in pre-order from a site on if they are those to which the paths through named
children lead, one for each path, and a site comes before those that are reached through it. -/
structure Site.Preordered (site : Site) (paths : List (List Nat)) (met : List Site) : Prop where
  leads : paths.map site.at? = met.map some
  complete : ∀ path, path ∈ paths ↔ (site.at? path).isSome = true
  once : paths.Nodup
  outerFirst : ∀ path further, further ≠ [] → path ++ further ∈ paths →
    [path, path ++ further].Sublist paths
  sorted : paths.Pairwise (· < ·)

theorem Node.preordered_walk (node : Node) :
    (Site.ofRoot node).Preordered node.paths node.walk := by
  have complete (path : List Nat) :
      path ∈ node.paths ↔ ((Site.ofRoot node).at? path).isSome = true :=
    (Site.ofRoot node).mem_paths_iff
  have sorted := node.pairwise_paths
  refine ⟨?_, complete, sorted.nodup, ?_, sorted⟩
  · rw [node.walk_eq_preorder]
    exact Site.map_at?_paths [] node
  · intro path further some member
    have reached := (complete _).mp member
    rw [Site.at?_append] at reached
    have passed : path ∈ node.paths := (complete path).mpr (Option.isSome_of_isSome_bind reached)
    exact sublist_of_lt sorted passed member (lt_append some)

/-! ## Places in the source -/

structure Node.Nested (node : Node) : Prop where
  ordered : node.start ≤ node.stop
  inside : ∀ child ∈ node.children, node.start ≤ child.start ∧ child.stop ≤ node.stop
  apart : node.children.Pairwise fun left right => left.stop ≤ right.start

def Node.NestedBelow (root : Node) : Prop :=
  ∀ node, root.Contains node → node.Nested

theorem Node.LaidOutBelow.nestedBelow {root : Node} {source : String}
    (below : root.LaidOutBelow source) : root.NestedBelow := by
  intro node contained
  have laid := below node contained
  exact ⟨laid.ordered, laid.nested, laid.apart⟩

namespace Site

variable {site inner : Site} {sites waiting : List Site} {first : Nat}

theorem nestedBelow_of_mem_below (nested : site.node.NestedBelow) (entered : inner ∈ site.below) :
    inner.node.NestedBelow := by
  rcases List.mem_map.mp entered with ⟨child, named, rfl⟩
  intro node contained
  exact nested node (Node.Contains.trans (.child .self (List.mem_of_mem_filter named)) contained)

theorem inside_of_mem_below (nested : site.node.NestedBelow) (entered : inner ∈ site.below) :
    site.node.start ≤ inner.node.start ∧ inner.node.stop ≤ site.node.stop := by
  rcases List.mem_map.mp entered with ⟨child, named, rfl⟩
  exact (nested site.node .self).inside child (List.mem_of_mem_filter named)

private theorem le_start_of_mem_walkAll (nested : ∀ site ∈ sites, site.node.NestedBelow)
    (behind : ∀ site ∈ sites, first ≤ site.node.start) :
    ∀ site ∈ walkAll sites, first ≤ site.node.start := by
  have all : ∀ site ∈ walkAll sites, site.node.NestedBelow ∧ first ≤ site.node.start := by
    refine forall_mem_walkAll ?_ fun site member => ⟨nested site member, behind site member⟩
    rintro site ⟨nested, behind⟩ inner entered
    exact ⟨nestedBelow_of_mem_below nested entered,
      behind.trans (inside_of_mem_below nested entered).1⟩
  exact fun site met => (all site met).2

/-- Sites that wait in order: each of them ends before the next one starts. -/
structure InOrder (sites : List Site) : Prop where
  nested : ∀ site ∈ sites, site.node.NestedBelow
  apart : sites.Pairwise fun left right => left.node.stop ≤ right.node.start

/-- The sites that are entered in the place of the first one are in order with the others. -/
theorem InOrder.turn (ordered : InOrder (site :: waiting)) : InOrder (site.below ++ waiting) := by
  rcases List.forall_mem_cons.mp ordered.nested with ⟨nested, others⟩
  rcases List.pairwise_cons.mp ordered.apart with ⟨behind, apart⟩
  constructor
  · intro inner member
    rcases List.mem_append.mp member with entered | waits
    · exact nestedBelow_of_mem_below nested entered
    · exact others inner waits
  · refine List.pairwise_append.mpr ⟨?_, apart, ?_⟩
    · exact List.pairwise_map.mpr ((nested site.node .self).apart.filter _)
    · intro inner entered other waits
      exact (inside_of_mem_below nested entered).2.trans (behind other waits)

theorem InOrder.start_le (ordered : InOrder (site :: waiting)) :
    ∀ inner ∈ site.below ++ waiting, site.node.start ≤ inner.node.start := by
  have nested := ordered.nested site List.mem_cons_self
  intro inner member
  rcases List.mem_append.mp member with entered | waits
  · exact (inside_of_mem_below nested entered).1
  · have behind := (List.pairwise_cons.mp ordered.apart).1 inner waits
    exact (nested site.node .self).ordered.trans behind

theorem InOrder.pairwise_start_walkAll (ordered : InOrder sites) :
    (walkAll sites).Pairwise fun left right => left.node.start ≤ right.node.start := by
  induction sites using walkAll.induct with
  | case1 =>
      rw [walkAll]
      exact .nil
  | case2 site waiting induction =>
      -- What the loop meets from here on are the sites that wait now and sites inside them.
      rw [walkAll]
      refine List.pairwise_cons.mpr ⟨?_, induction ordered.turn⟩
      exact le_start_of_mem_walkAll ordered.turn.nested ordered.start_le

private theorem inOrder_singleton (nested : site.node.NestedBelow) : InOrder [site] where
  nested := List.forall_mem_singleton.mpr nested
  apart := List.pairwise_singleton _ site

end Site

/-! ## The walk -/

/-- The loop over the stack ends with the walk. It is a node and then the walks of its named
children, it is in pre-order, and no unnamed node is met below the first. Where nodes are nested,
starts never decrease. -/
theorem Node.walk_preorder (node : Node) :
    (∀ met, Site.WorksOff [Site.ofRoot node] met ↔ met = node.walk) ∧
      node.walk = Site.ofRoot node ::
        node.namedChildren.flatMap (fun child => child.walk.map (Site.under [node])) ∧
      (Site.ofRoot node).Preordered node.paths node.walk ∧
      (∀ site ∈ node.walk.tail, site.node.named = true) ∧
      (node.NestedBelow → (node.walk.map fun site => site.node.start).Pairwise (· ≤ ·)) := by
  refine ⟨fun met => Site.worksOff_iff, node.walk_eq_cons, node.preordered_walk, ?_, ?_⟩
  · rw [Node.walk, Site.walkAll, List.append_nil]
    exact Site.forall_mem_walkAll (fun _ _ _ => Site.named_of_mem_below)
      fun _ => Site.named_of_mem_below
  · intro nested
    exact List.pairwise_map.mpr (Site.inOrder_singleton nested).pairwise_start_walkAll

/-- A call in which a named node stands below a token. -/
def hiddenArgument : Node :=
  .onLine "call" true none 0 6 "f(x,y)" [
    .onLine "identifier" true (some "method") 0 1 "f" [],
    .onLine "argument_list" true (some "arguments") 1 6 "(x,y)" [
      .onLine "(" false none 1 2 "(" [],
      .onLine "identifier" true none 2 3 "x" [],
      .onLine "more" false none 3 5 ",y" [.onLine "identifier" true none 4 5 "y" []],
      .onLine ")" false none 5 6 ")" []]]

theorem Node.walk_preorder_hiddenArgument :
    hiddenArgument.NestedBelow ∧ hiddenArgument.paths = [[], [0], [1], [1, 1]] ∧
      (hiddenArgument.walk.map fun site => site.node.start).Pairwise (· ≤ ·) := by
  have laidOut : hiddenArgument.LaidOutBelow "f(x,y)" := by decide
  rcases hiddenArgument.walk_preorder with ⟨-, -, -, -, ascend⟩
  exact ⟨laidOut.nestedBelow, rfl, ascend laidOut.nestedBelow⟩

end FormulaLint
