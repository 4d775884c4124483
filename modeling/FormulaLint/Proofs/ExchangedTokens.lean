import FormulaLint.Proofs.LaidOut

/-! Words that take the place of a token. What stands in front of the token stays where it is, and
what stands behind it is moved; so a tree that is laid out in a text is laid out in the text with
the word, once its offsets are carried along. -/

namespace FormulaLint

/-! ## Exchanged stretches -/

namespace Text

variable {text word front back : String} {start stop first last : Nat}

def exchange (text : String) (start stop : Nat) (word : String) : String :=
  slice text 0 start ++ word ++ slice text stop text.length

/-- Where an offset outside of the stretch is found after the exchange. -/
def carry (start stop length offset : Nat) : Nat :=
  if offset < stop then offset else start + length + (offset - stop)

theorem carry_of_lt {length offset : Nat} (inFront : offset < stop) :
    carry start stop length offset = offset :=
  if_pos inFront

theorem carry_of_le {length offset : Nat} (behind : stop ≤ offset) :
    carry start stop length offset = start + length + (offset - stop) :=
  if_neg (Nat.not_lt.mpr behind)

private theorem slice_append_of_le (inFront : stop ≤ front.length) :
    slice (front ++ back) start stop = slice front start stop := by
  rw [← String.length_toList] at inFront
  rw [← String.toList_inj, toList_slice_natCast, toList_slice_natCast, String.toList_append,
    List.take_append_of_le_length inFront]

theorem slice_append_add (front back : String) (start stop : Nat) :
    slice (front ++ back) (front.length + start : Nat) (front.length + stop : Nat) =
      slice back start stop := by
  rw [← String.toList_inj, toList_slice_natCast, toList_slice_natCast, String.toList_append,
    ← String.length_toList, List.take_length_add_append, List.drop_length_add_append]

theorem length_exchange (ordered : start ≤ stop) (within : stop ≤ text.length) :
    (exchange text start stop word).length = start + word.length + (text.length - stop) := by
  have front : (slice text 0 start).length = start :=
    String.length_toList.symm.trans (length_slice_zero (ordered.trans within))
  rw [exchange, String.length_append, String.length_append, front,
    length_slice_natCast (Nat.le_refl _)]

theorem slice_exchange_front (inFront : last ≤ start) (within : start ≤ text.length) :
    slice (exchange text start stop word) first last = slice text first last := by
  have length : (slice text 0 start).length = start :=
    String.length_toList.symm.trans (length_slice_zero within)
  rw [exchange, String.append_assoc, slice_append_of_le (by omega), ← String.toList_inj,
    toList_slice_natCast, toList_slice_natCast, toList_slice_zero, List.take_take,
    Nat.min_eq_left inFront]

theorem slice_exchange_behind (behind : stop ≤ first) (ordered : first ≤ last)
    (within : start ≤ text.length) (reaches : last ≤ text.length) :
    slice (exchange text start stop word) (start + word.length + (first - stop) : Nat)
        (start + word.length + (last - stop) : Nat) =
      slice text first last := by
  have length : (slice text 0 start ++ word).length = start + word.length := by
    rw [String.length_append, ← @String.length_toList (slice text 0 start),
      length_slice_zero within]
  have inner : slice (slice text stop text.length) (first - stop) (last - stop) =
      slice text first last := slice_slice behind ordered reaches
  rw [← Int.ofNat_sub behind, ← Int.ofNat_sub (behind.trans ordered)] at inner
  rw [exchange, ← length, slice_append_add, inner]

/-- A stretch that does not overlap the exchanged one is found where its ends are carried. -/
theorem slice_exchange_carry (filled : start < stop) (within : stop ≤ text.length)
    (ordered : first ≤ last) (reaches : last ≤ text.length) (apart : last ≤ start ∨ stop ≤ first) :
    slice (exchange text start stop word) (carry start stop word.length first)
        (carry start stop word.length last) =
      slice text first last := by
  rcases apart with inFront | behind
  · rw [carry_of_lt (by omega), carry_of_lt (by omega), slice_exchange_front inFront (by omega)]
  · rw [carry_of_le behind, carry_of_le (by omega),
      slice_exchange_behind behind ordered (by omega) reaches]

theorem slice_exchange_around (filled : start < stop) (front : first ≤ start) (back : stop ≤ last)
    (reaches : last ≤ text.length) :
    slice (exchange text start stop word) first (carry start stop word.length last) =
      slice text first start ++ word ++ slice text stop last := by
  have within : start ≤ text.length := by omega
  have length : (slice text 0 start).length = start :=
    String.length_toList.symm.trans (length_slice_zero within)
  have middle : slice (exchange text start stop word) start (start + word.length : Nat) = word := by
    have cut := slice_middle (slice text 0 start) word (slice text stop text.length)
    rwa [length] at cut
  have behind : slice (exchange text start stop word) (start + word.length : Nat)
      (carry start stop word.length last) = slice text stop last := by
    rw [carry_of_le back, ← slice_exchange_behind (Nat.le_refl stop) back within reaches,
      Nat.sub_self, Nat.add_zero]
  have placed : start + word.length ≤ carry start stop word.length last := by
    rw [carry_of_le back]
    omega
  rw [← slice_append_slice _ front (show start ≤ carry start stop word.length last by omega),
    ← slice_append_slice _ (Nat.le_add_right start word.length) placed,
    slice_exchange_front (Nat.le_refl start) within, middle, behind, String.append_assoc]

theorem carry_le_carry {length : Nat} (ordered : first ≤ last)
    (outside : first ≤ start ∨ stop ≤ first) :
    carry start stop length first ≤ carry start stop length last := by
  unfold carry
  split <;> split <;> omega

end Text

namespace Node

variable {node call child token : Node} {source image word : String}

/-! ## Relocated trees -/

mutual

def relocated (carry : Nat → Nat) : Node → Node
  | ⟨label, named, field, extent, text, children⟩ =>
      ⟨label, named, field,
        { extent with start := carry extent.start, stop := carry extent.stop }, text,
        relocatedAll carry children⟩

def relocatedAll (carry : Nat → Nat) : List Node → List Node
  | [] => []
  | node :: rest => node.relocated carry :: relocatedAll carry rest

end

variable {carry : Nat → Nat}

private theorem relocatedAll_eq (nodes : List Node) :
    relocatedAll carry nodes = nodes.map (relocated carry) := by
  induction nodes with
  | nil => rfl
  | cons node rest induction => rw [relocatedAll, induction, List.map_cons]

@[simp] theorem start_relocated (node : Node) :
    (node.relocated carry).start = carry node.start := by
  cases node
  rfl

@[simp] theorem stop_relocated (node : Node) : (node.relocated carry).stop = carry node.stop := by
  cases node
  rfl

@[simp] theorem text_relocated (node : Node) : (node.relocated carry).text = node.text := by
  cases node
  rfl

@[simp] theorem field_relocated (node : Node) : (node.relocated carry).field = node.field := by
  cases node
  rfl

@[simp] theorem children_relocated (node : Node) :
    (node.relocated carry).children = node.children.map (relocated carry) := by
  cases node
  exact relocatedAll_eq _

theorem exists_of_contains_relocated (contained : (node.relocated carry).Contains child) :
    ∃ inner, node.Contains inner ∧ child = inner.relocated carry := by
  induction contained with
  | self => exact ⟨node, .self, rfl⟩
  | child _ member induction =>
      rcases induction with ⟨parent, below, rfl⟩
      rw [children_relocated] at member
      rcases List.mem_map.mp member with ⟨inner, listed, rfl⟩
      exact ⟨inner, .child below listed, rfl⟩

/-- A tree is laid out where it is relocated to, if the stretches inside it are found there. -/
theorem LaidOutBelow.relocated (below : node.LaidOutBelow source)
    (keeps : ∀ start stop, node.start ≤ start → start ≤ stop → stop ≤ node.stop →
      carry start ≤ carry stop ∧ carry stop ≤ image.length ∧
        Text.slice image (carry start) (carry stop) = Text.slice source start stop) :
    (node.relocated carry).LaidOutBelow image := by
  intro found contained
  rcases exists_of_contains_relocated contained with ⟨inner, innerContained, rfl⟩
  have laid := below inner innerContained
  have bounds := below.bounds innerContained
  rcases keeps inner.start inner.stop bounds.1 bounds.2.1 bounds.2.2 with ⟨ordered, within, same⟩
  refine { ordered := ?_, within := ?_, text := ?_, nested := ?_, apart := ?_ }
  · rwa [start_relocated, stop_relocated]
  · rwa [stop_relocated]
  · rw [text_relocated, start_relocated, stop_relocated, same, laid.text]
  · rw [children_relocated]
    intro moved member
    rcases List.mem_map.mp member with ⟨child, listed, rfl⟩
    have nested := laid.nested child listed
    have childOrdered := (below child (.child innerContained listed)).ordered
    simp only [start_relocated, stop_relocated]
    exact ⟨(keeps _ _ (by omega) nested.1 (by omega)).1,
      (keeps _ _ (by omega) nested.2 (by omega)).1⟩
  · rw [children_relocated, List.pairwise_map]
    refine laid.apart.imp_of_mem fun {left right} leftMember rightMember apart => ?_
    have leftNested := laid.nested left leftMember
    have rightNested := laid.nested right rightMember
    have leftOrdered := (below left (.child innerContained leftMember)).ordered
    have rightOrdered := (below right (.child innerContained rightMember)).ordered
    rw [stop_relocated, start_relocated]
    exact (keeps _ _ (by omega) apart (by omega)).1

/-! ## A token and what is around it -/

theorem LaidOut.beside (laid : node.LaidOut source) (childMember : child ∈ node.children)
    (tokenMember : token ∈ node.children) :
    child = token ∨ child.stop ≤ token.start ∨ token.stop ≤ child.start := by
  rcases List.mem_iff_getElem.mp childMember with ⟨place, placeBound, rfl⟩
  rcases List.mem_iff_getElem.mp tokenMember with ⟨other, otherBound, rfl⟩
  have apart := List.pairwise_iff_getElem.mp laid.apart
  rcases Nat.lt_trichotomy place other with before | same | behind
  · exact .inr (.inl (apart place other placeBound otherBound before))
  · exact .inl (by simp only [same])
  · exact .inr (.inr (apart other place otherBound placeBound behind))

theorem LaidOutBelow.stop_outside (below : node.LaidOutBelow source)
    (childMember : child ∈ node.children) (tokenMember : token ∈ node.children) :
    child.stop ≤ token.start ∨ token.stop ≤ child.stop := by
  have ordered := (below.child childMember).self.ordered
  rcases below.self.beside childMember tokenMember with rfl | inFront | behind
  · exact .inr (Nat.le_refl child.stop)
  · exact .inl inFront
  · exact .inr (behind.trans ordered)

theorem LaidOutBelow.text_around (below : node.LaidOutBelow source)
    (member : child ∈ node.children) :
    node.text = Text.slice source node.start child.start ++ child.text ++
      Text.slice source child.stop node.stop := by
  have bounds := below.bounds (.child .self member)
  rw [below.self.text, (below.child member).self.text,
    Text.slice_append_slice source bounds.1 bounds.2.1,
    Text.slice_append_slice source (bounds.1.trans bounds.2.1) bounds.2.2]

/-! ## The node with the word -/

def besides (token : Node) (word : String) (child : Node) : Node :=
  let moved := child.relocated (Text.carry token.start token.stop word.length)
  if child.stop ≤ token.start ∨ token.stop ≤ child.start then moved
  else { moved with text := word, children := [] }

/-- A call in which a token is exchanged for a word: the token has the word for its text, and what
stands behind it is moved. -/
def exchanged (call token : Node) (word : String) : Node where
  label := call.label
  named := call.named
  field := call.field
  extent := { call.extent with stop := Text.carry token.start token.stop word.length call.stop }
  text := Text.exchange call.text (token.start - call.start) (token.stop - call.start) word
  children := call.children.map (besides token word)

theorem start_besides : (besides token word child).start =
    Text.carry token.start token.stop word.length child.start := by
  rw [besides]
  split
  · exact start_relocated child
  · exact start_relocated child

theorem stop_besides : (besides token word child).stop =
    Text.carry token.start token.stop word.length child.stop := by
  rw [besides]
  split
  · exact stop_relocated child
  · exact stop_relocated child

theorem field_besides : (besides token word child).field = child.field := by
  rw [besides]
  split
  · exact field_relocated child
  · exact field_relocated child

theorem text_exchanged (laid : call.LaidOut source) (filled : token.start < token.stop)
    (front : call.start ≤ token.start) (back : token.stop ≤ call.stop) :
    (call.exchanged token word).text =
      Text.slice source call.start token.start ++ word ++
        Text.slice source token.stop call.stop := by
  have before := laid.slice_text (Nat.le_refl call.start) front (by omega)
  have behind := laid.slice_text (by omega) back (Nat.le_refl call.stop)
  have start : (call.start : Int) - call.start = 0 := Int.sub_self _
  have stop : (call.stop : Int) - call.start = call.text.length := by
    rw [laid.length_text, Int.ofNat_sub laid.ordered]
  rw [start, ← Int.ofNat_sub front] at before
  rw [stop, ← Int.ofNat_sub (by omega)] at behind
  rw [exchanged, Text.exchange, before, behind]

theorem laidOut_besides (below : call.LaidOutBelow source) (tokenMember : token ∈ call.children)
    (filled : token.start < token.stop) (member : child ∈ call.children) :
    (besides token word child).LaidOutBelow
      (Text.exchange source token.start token.stop word) := by
  have within := below.self.within
  have tokenBounds := below.bounds (.child .self tokenMember)
  have childBounds := below.bounds (.child .self member)
  have length : (Text.exchange source token.start token.stop word).length = _ :=
    Text.length_exchange filled.le (by omega)
  rw [besides]
  split
  · next outside =>
      refine (below.child member).relocated fun start stop first ordered last => ?_
      refine ⟨Text.carry_le_carry ordered (by omega), ?_, ?_⟩
      · rw [length, Text.carry]
        split <;> omega
      · exact Text.slice_exchange_carry filled (by omega) ordered (by omega) (by omega)
  · next overlaps =>
      have same : child = token :=
        (below.self.beside member tokenMember).resolve_right overlaps
      subst same
      have front : (Text.slice source 0 child.start).length = child.start :=
        String.length_toList.symm.trans (Text.length_slice_zero (by omega))
      refine laidOutBelow_iff.mpr ⟨?_, List.forall_mem_nil _⟩
      refine laidOut_of_parted (Text.slice source 0 child.start)
        (Text.slice source child.stop source.length) rfl ?_ ?_ (List.forall_mem_nil _) .nil
      · rw [front]
        exact (start_relocated child).trans (Text.carry_of_lt filled)
      · rw [front]
        refine (stop_relocated child).trans ?_
        rw [Text.carry_of_le (Nat.le_refl child.stop), Nat.sub_self, Nat.add_zero]

theorem laidOutBelow_exchanged (below : call.LaidOutBelow source)
    (tokenMember : token ∈ call.children) (filled : token.start < token.stop) :
    (call.exchanged token word).LaidOutBelow
      (Text.exchange source token.start token.stop word) := by
  have within := below.self.within
  have bounds := below.bounds (.child .self tokenMember)
  have length : (Text.exchange source token.start token.stop word).length = _ :=
    Text.length_exchange filled.le (by omega)
  have stop : (call.exchanged token word).stop =
      Text.carry token.start token.stop word.length call.stop := rfl
  have moved := stop.trans (Text.carry_of_le bounds.2.2)
  refine laidOutBelow_iff.mpr ⟨?_, ?_⟩
  · refine { ordered := ?_, within := ?_, text := ?_, nested := ?_, apart := ?_ }
    · change call.start ≤ (call.exchanged token word).stop
      omega
    · change (call.exchanged token word).stop ≤ _
      omega
    · change (call.exchanged token word).text = _
      rw [text_exchanged below.self filled bounds.1 bounds.2.2]
      exact (Text.slice_exchange_around filled bounds.1 bounds.2.2 within).symm
    · intro image member
      rcases List.mem_map.mp member with ⟨child, listed, rfl⟩
      have childBounds := below.bounds (.child .self listed)
      rw [start_besides, stop_besides]
      constructor
      · change call.start ≤ _
        rw [Text.carry]
        split <;> omega
      · exact Text.carry_le_carry childBounds.2.2 (below.stop_outside listed tokenMember)
    · refine List.pairwise_map.mpr (below.self.apart.imp_of_mem ?_)
      intro left right leftMember _ apart
      rw [stop_besides, start_besides]
      exact Text.carry_le_carry apart (below.stop_outside leftMember tokenMember)
  · intro image member
    rcases List.mem_map.mp member with ⟨child, listed, rfl⟩
    exact laidOut_besides below tokenMember filled listed

end Node

end FormulaLint
