import FormulaLint.Proofs.Lines
import FormulaLint.Proofs.ParentLinks
import FormulaLint.Proofs.RuleByRule

/-! The line of the source that an offense shows. It is picked by its number among the shown lines
of the formula, while the number counts line feeds, so it is the line of the node that the offense
is about only as long as no other mark gets in between. -/

namespace FormulaLint

/-! ## Nodes in their text -/

inductive Node.Contains (root : Node) : Node → Prop where
  | self : root.Contains root
  | child {parent node : Node} :
      root.Contains parent → node ∈ parent.children → root.Contains node

namespace ConcreteNode

variable {source : String}

theorem of_toSyntax?_eq_some {concrete : ConcreteNode} {node : Node}
    (made : concrete.toSyntax? source = some node) :
    node.extent = Extent.ofOffsets source.toList node.start node.stop ∧
      toSyntaxAll? source concrete.children = some node.children := by
  rcases concrete with ⟨label, named, field, start, stop, children⟩
  simp only [toSyntax?, Option.bind_eq_bind, Option.pure_def, Option.bind_eq_some_iff,
    Option.some.injEq] at made
  rcases made with ⟨first, -, last, -, below, convert, rfl⟩
  exact ⟨rfl, convert⟩

private theorem exists_of_mem_toSyntaxAll? {concretes : List ConcreteNode} {nodes : List Node}
    (made : toSyntaxAll? source concretes = some nodes) {node : Node} (member : node ∈ nodes) :
    ∃ concrete : ConcreteNode, concrete.toSyntax? source = some node := by
  induction concretes generalizing nodes with
  | nil =>
      simp only [toSyntaxAll?, Option.some.injEq] at made
      subst made
      cases member
  | cons concrete rest induction =>
      simp only [toSyntaxAll?, Option.bind_eq_bind, Option.pure_def, Option.bind_eq_some_iff,
        Option.some.injEq] at made
      rcases made with ⟨first, firstMade, others, othersMade, rfl⟩
      rcases List.mem_cons.mp member with rfl | later
      · exact ⟨concrete, firstMade⟩
      · exact induction othersMade later

end ConcreteNode

namespace Formula

def ReadFrom (formula : Formula) (source : String) : Prop :=
  ∃ concrete, ofConcrete? source concrete = some formula

variable {formula : Formula} {source : String}

theorem ReadFrom.source_eq (read : formula.ReadFrom source) : formula.source = source := by
  rcases read with ⟨concrete, made⟩
  rw [ofConcrete?_eq] at made
  rcases Option.map_eq_some_iff.mp made with ⟨root, -, rfl⟩
  rfl

/-- The nodes of a formula stand on the lines and at the columns of their offsets. -/
theorem ReadFrom.place_eq (read : formula.ReadFrom source) {node : Node}
    (contained : formula.root.Contains node) :
    (node.line, node.column) = Text.lineAndColumn source.toList node.start := by
  rcases read with ⟨concrete, made⟩
  rw [ofConcrete?_eq] at made
  rcases Option.map_eq_some_iff.mp made with ⟨root, rootMade, rfl⟩
  have converted : ∃ concrete : ConcreteNode, concrete.toSyntax? source = some node := by
    induction contained with
    | self => exact ⟨concrete.root, rootMade⟩
    | child _ member induction =>
        rcases induction with ⟨parent, parentMade⟩
        exact ConcreteNode.exists_of_mem_toSyntaxAll?
          (ConcreteNode.of_toSyntax?_eq_some parentMade).2 member
  rcases converted with ⟨concrete, nodeMade⟩
  rw [Node.line, Node.column, (ConcreteNode.of_toSyntax?_eq_some nodeMade).1, Extent.ofOffsets]

theorem ReadFrom.line_eq (read : formula.ReadFrom source) {node : Node}
    (contained : formula.root.Contains node) :
    node.line = (Text.lineAndColumn source.toList node.start).1 :=
  congrArg Prod.fst (read.place_eq contained)

/-- The line that stands as many lines behind that of an offset as there are stray breaks in front
of the offset's line is the line of the offset, if that one holds no mark. -/
theorem ReadFrom.shownLine_add (read : formula.ReadFrom source) {offset : Nat}
    (plain : ∀ c ∈ Text.rawLine source.toList offset, Text.breaksLine c = false) :
    formula.shownLine ((Text.lineAndColumn source.toList offset).1 + Text.strayBreaks
        (source.toList.take (Text.lineStart source.toList offset))) =
      String.ofList (Text.rawLine source.toList offset) := by
  rw [Text.lineAndColumn_eq, ← Text.getElem?_lines_of_plain plain, shownLine, if_neg (by omega),
    lines, read.source_eq]
  congr 2
  omega

theorem breaksLine_eq_false_of_shownLine (formula : Formula) (line : Int) :
    ∀ c ∈ (formula.shownLine line).toList, Text.breaksLine c = false := by
  unfold shownLine
  split
  · exact List.forall_mem_nil _
  · cases found : formula.lines[line.toNat - 1]? with
    | none => exact List.forall_mem_nil _
    | some text =>
        exact Text.breaksLine_eq_false_of_mem_linesAfter (List.forall_mem_nil _)
          (List.mem_of_getElem? found)

end Formula

/-! ## Offenses at nodes -/

/-- An audit of a formula reports an offense on the line of a node. -/
structure Offense.ReportedAt (offense : Offense) (formula : Formula) (node : Node) : Prop where
  reported : ∃ (audit : Audit) (provenance : Provenance),
    offense ∈ (audit.run formula provenance).1.offenses
  contained : formula.root.Contains node
  line : offense.line = node.line

theorem Offense.ReportedAt.sourceLine_eq {offense : Offense} {formula : Formula} {node : Node}
    (reported : offense.ReportedAt formula node) :
    offense.sourceLine = formula.shownLine offense.line := by
  rcases reported.reported with ⟨audit, provenance, member⟩
  rcases (audit.mem_offenses_run_iff formula provenance).mp member with ⟨rule, -, draft, -, rfl⟩
  rfl

section

variable {source : String} {formula : Formula} {offense : Offense} {node : Node}

theorem Offense.ReportedAt.sourceLine_eq_rawLine_iff (reported : offense.ReportedAt formula node)
    (read : formula.ReadFrom source) :
    offense.sourceLine = String.ofList (Text.rawLine source.toList node.start) ↔
      (∀ c ∈ Text.rawLine source.toList node.start, Text.breaksLine c = false) ∧
        formula.shownLine offense.line = formula.shownLine (offense.line + Text.strayBreaks
          (source.toList.take (Text.lineStart source.toList node.start))) := by
  rw [reported.sourceLine_eq, reported.line, read.line_eq reported.contained]
  constructor
  · intro same
    have plain : ∀ c ∈ Text.rawLine source.toList node.start, Text.breaksLine c = false := by
      have shown := formula.breaksLine_eq_false_of_shownLine
        (Text.lineAndColumn source.toList node.start).1
      rwa [same, String.toList_ofList] at shown
    exact ⟨plain, same.trans (read.shownLine_add plain).symm⟩
  · rintro ⟨plain, same⟩
    exact same.trans (read.shownLine_add plain)

end

/-! ## Texts of which all lines are shown -/

namespace Text

def OnlyLineFeeds (chars : List Char) : Prop :=
  ∀ c ∈ chars, breaksLine c = true → c = '\n'

private theorem strayBreaks_eq_zero {chars : List Char} (feeds : OnlyLineFeeds chars) :
    strayBreaks chars = 0 := by
  induction chars with
  | nil => rfl
  | cons c rest induction =>
      rcases List.forall_mem_cons.mp feeds with ⟨first, later⟩
      rw [strayBreaks, if_neg]
      · exact induction later
      · intro stray
        simp only [Bool.and_eq_true, bne_iff_ne] at stray
        exact stray.1.2 (first stray.1.1)

private theorem breaksLine_eq_false_of_mem_rawLine {chars : List Char} (feeds : OnlyLineFeeds chars)
    (offset : Nat) : ∀ c ∈ rawLine chars offset, breaksLine c = false := by
  intro c member
  have inText : c ∈ chars := List.mem_of_mem_drop ((List.takeWhile_sublist _).subset member)
  have passed := List.mem_takeWhile_imp member
  rw [bne_iff_ne] at passed
  rw [Bool.eq_false_iff]
  intro breaks
  exact passed (feeds c inText breaks)

end Text

/-! ## An audit that reports every node -/

def everyNode : Rule :=
  .convention "Node" "Place" SyntaxKind.all fun _ site => [site.node.report "a node" none]

def everyNodeAudit : Audit where
  catalogue := .ofFaultless [everyNode] (by decide)
  configuration := {}

private theorem everyNode_kinds (kind : SyntaxKind) : everyNode.kinds.contains kind = true := by
  cases kind <;> rfl

theorem exists_reportedAt {formula : Formula} {site : Site} (visited : site ∈ formula.walk)
    (contained : formula.root.Contains site.node) :
    ∃ offense : Offense, offense.ReportedAt formula site.node := by
  let provenance := formula.provenance none
  have member : everyNode ∈ everyNodeAudit.catalogue.rules := List.mem_singleton_self everyNode
  have includes : everyNodeAudit.leavesOut provenance everyNode = false := rfl
  have succeeds : everyNodeAudit.ruleFails formula provenance everyNode = false :=
    List.any_eq_false.mpr fun site _ => Bool.false_ne_true
  have drafted : site.node.report "a node" none ∈
      everyNodeAudit.ruleDrafts formula provenance everyNode := by
    rw [Audit.ruleDrafts, includes, succeeds]
    refine List.mem_flatMap.mpr ⟨site, List.mem_filter.mpr ⟨?_, everyNode_kinds _⟩, ?_⟩
    · rw [← Node.walk_eq_preorder]
      exact visited
    · exact List.mem_singleton_self _
  have reported := (everyNodeAudit.mem_offenses_run_iff formula provenance).mpr
    ⟨everyNode, member, _, drafted, rfl⟩
  exact ⟨_, ⟨everyNodeAudit, provenance, reported⟩, contained, rfl⟩

theorem exists_readFrom (source : String) {offset : Nat} (within : offset ≤ source.toList.length) :
    ∃ formula : Formula, formula.ReadFrom source ∧ formula.root.start = offset := by
  let front := Text.byteLength (source.toList.take offset)
  have place : Text.charOffset source.toList front = some offset := by
    have found := Text.charOffset_byteLength (source.toList.take offset) (source.toList.drop offset)
    rwa [List.take_append_drop, List.length_take, Nat.min_eq_left within] at found
  let root : Node := ⟨"program", true, none, .ofOffsets source.toList offset offset,
    Text.slice source offset offset, []⟩
  refine ⟨⟨source, root, false⟩, ⟨⟨⟨"program", true, none, front, front, []⟩, false⟩, ?_⟩, rfl⟩
  simp [root, Formula.ofConcrete?_eq, ConcreteNode.toSyntax?, ConcreteNode.toSyntaxAll?, place]

theorem root_mem_walk (formula : Formula) : Site.ofRoot formula.root ∈ formula.walk := by
  rw [Formula.walk, Node.walk, Site.walkAll]
  exact List.mem_cons_self

/-! ## Texts of which all lines are shown -/

/-- Whatever audit of a text reports an offense at a node, the offense shows the node's line. -/
def ShowsRawLines (source : String) : Prop :=
  ∀ formula : Formula, formula.ReadFrom source →
    ∀ (offense : Offense) (node : Node), offense.ReportedAt formula node →
      offense.sourceLine = String.ofList (Text.rawLine source.toList node.start)

/-- Every character but the line feeds stands in the shown line of its number, at its column. -/
def ShowsCharacters (source : String) : Prop :=
  ∀ formula : Formula, formula.ReadFrom source →
    ∀ (offset : Nat) (c : Char), source.toList[offset]? = some c → c ≠ '\n' →
      (formula.shownLine (Text.lineAndColumn source.toList offset).1).toList[
        (Text.lineAndColumn source.toList offset).2]? = some c

theorem Formula.ReadFrom.shownLine_eq {formula : Formula} {source : String}
    (read : formula.ReadFrom source) (feeds : Text.OnlyLineFeeds source.toList) (offset : Nat) :
    formula.shownLine (Text.lineAndColumn source.toList offset).1 =
      String.ofList (Text.rawLine source.toList offset) := by
  have none : Text.strayBreaks (source.toList.take (Text.lineStart source.toList offset)) = 0 :=
    Text.strayBreaks_eq_zero fun c member => feeds c (List.mem_of_mem_take member)
  have shown := read.shownLine_add (Text.breaksLine_eq_false_of_mem_rawLine feeds offset)
  rwa [none, Int.natCast_zero, Int.add_zero] at shown

theorem showsRawLines_of_onlyLineFeeds {source : String}
    (feeds : Text.OnlyLineFeeds source.toList) : ShowsRawLines source := by
  intro formula read offense node reported
  rw [reported.sourceLine_eq, reported.line, read.line_eq reported.contained]
  exact read.shownLine_eq feeds node.start

/-- A node that starts at a further mark is reported with a line that does not hold the mark. -/
theorem onlyLineFeeds_of_showsRawLines {source : String} (shows : ShowsRawLines source) :
    Text.OnlyLineFeeds source.toList := by
  intro c member breaks
  by_contra other
  rcases List.mem_iff_getElem?.mp member with ⟨offset, stands⟩
  rcases List.getElem?_eq_some_iff.mp stands with ⟨inside, -⟩
  rcases exists_readFrom source (Nat.le_of_lt inside) with ⟨formula, read, start⟩
  rcases exists_reportedAt (root_mem_walk formula) .self with ⟨offense, reported⟩
  have plain := ((reported.sourceLine_eq_rawLine_iff read).mp (shows formula read _ _ reported)).1
  have inLine := List.mem_of_getElem? (Text.getElem?_rawLine stands other)
  rw [← start] at inLine
  have unbroken := plain c inLine
  rw [breaks] at unbroken
  cases unbroken

theorem showsCharacters_of_onlyLineFeeds {source : String}
    (feeds : Text.OnlyLineFeeds source.toList) : ShowsCharacters source := by
  intro formula read offset c stands other
  rw [read.shownLine_eq feeds offset, String.toList_ofList, Text.lineAndColumn_eq]
  exact Text.getElem?_rawLine stands other

theorem onlyLineFeeds_of_showsCharacters {source : String} (shows : ShowsCharacters source) :
    Text.OnlyLineFeeds source.toList := by
  intro c member breaks
  by_contra other
  rcases List.mem_iff_getElem?.mp member with ⟨offset, stands⟩
  rcases exists_readFrom source (Nat.zero_le source.toList.length) with ⟨formula, read, -⟩
  have shown := List.mem_of_getElem? (shows formula read offset c stands other)
  have unbroken := formula.breaksLine_eq_false_of_shownLine _ c shown
  rw [breaks] at unbroken
  cases unbroken

/-- Offenses show the lines of their nodes, and characters stand where they are counted, in just
those texts in which nothing but line feeds breaks lines. In any text an offense shows the line of
its node if that line holds no mark and no stray break in front of it makes for another line. -/
theorem showsRawLines_iff (source : String) :
    (ShowsRawLines source ↔ Text.OnlyLineFeeds source.toList) ∧
      (ShowsCharacters source ↔ Text.OnlyLineFeeds source.toList) ∧
      ∀ formula : Formula, formula.ReadFrom source →
        ∀ (offense : Offense) (node : Node), offense.ReportedAt formula node →
          (offense.sourceLine = String.ofList (Text.rawLine source.toList node.start) ↔
            (∀ c ∈ Text.rawLine source.toList node.start, Text.breaksLine c = false) ∧
              formula.shownLine offense.line =
                formula.shownLine (offense.line + Text.strayBreaks
                  (source.toList.take (Text.lineStart source.toList node.start)))) :=
  ⟨⟨onlyLineFeeds_of_showsRawLines, showsRawLines_of_onlyLineFeeds⟩,
    ⟨onlyLineFeeds_of_showsCharacters, showsCharacters_of_onlyLineFeeds⟩,
    fun _ read _ _ reported => reported.sourceLine_eq_rawLine_iff read⟩

def pagedFormula : Formula where
  source := "a\x0c\nb"
  root := ⟨"program", true, none, ⟨1, 0, 2, 1, 0, 4⟩, "a\x0c\nb", [
    ⟨"identifier", true, none, ⟨1, 0, 1, 1, 0, 1⟩, "a", []⟩,
    ⟨"identifier", true, none, ⟨2, 0, 2, 1, 3, 4⟩, "b", []⟩]⟩
  hasError := false

theorem readFrom_pagedFormula : pagedFormula.ReadFrom "a\x0c\nb" :=
  ⟨⟨⟨"program", true, none, 0, 4, [⟨"identifier", true, none, 0, 1, []⟩,
    ⟨"identifier", true, none, 3, 4, []⟩]⟩, false⟩, rfl⟩

/-- The second name is reported with the empty line that the form feed leaves in front of its own.
-/
theorem not_showsRawLines_pagedFormula :
    ¬ShowsRawLines "a\x0c\nb" ∧ ¬ShowsCharacters "a\x0c\nb" := by
  have shown : pagedFormula.shownLine 2 = "" := by decide
  constructor
  · intro shows
    let name : Node := ⟨"identifier", true, none, ⟨2, 0, 2, 1, 3, 4⟩, "b", []⟩
    have visited : (⟨name, [pagedFormula.root]⟩ : Site) ∈ pagedFormula.walk := by
      rw [Formula.walk, Node.walk_eq_preorder]
      exact .tail _ (.tail _ (.head _))
    have contained : pagedFormula.root.Contains name := .child .self (.tail _ (.head _))
    rcases exists_reportedAt visited contained with ⟨offense, reported⟩
    have equal := shows pagedFormula readFrom_pagedFormula offense name reported
    rw [reported.sourceLine_eq, reported.line] at equal
    have line : pagedFormula.shownLine name.line = "" := shown
    rw [line] at equal
    have raw : Text.rawLine "a\x0c\nb".toList name.start = ['b'] := rfl
    rw [raw] at equal
    exact absurd equal (by decide)
  · intro shows
    have found := shows pagedFormula readFrom_pagedFormula 3 'b' rfl (by decide)
    exact absurd found (by decide)

end FormulaLint
