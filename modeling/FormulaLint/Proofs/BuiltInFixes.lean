import FormulaLint.Proofs.BuiltInDrafts

/-! Reports of the built-in rules: their fixes lie in the source, whatever the tables say, as long
as the tree is laid out in the source with its fields in the order of the grammar. -/

namespace FormulaLint.Audit

/-- Whatever the tables say, fixes of built-in rules lie in the source, and the plan of a report
stays in it. -/
theorem staysIn_of_builtIn (audit : Audit)
    (builtIn : ∀ rule ∈ audit.catalogue.rules, rule ∈ Rules.builtIn)
    (formula : Formula) (laidOut : formula.root.LaidOutBelow formula.source)
    (ordered : ∀ node, formula.root.Contains node → node.InGrammarOrder)
    (provenance : Provenance) :
    let report := (audit.run formula provenance).1
    (∀ offense ∈ report.offenses,
        ∀ fix, offense.fix = some fix → fix.Within formula.source) ∧
      (Correction.ofOffenses report.offenses).StaysIn formula.source := by
  have within : ∀ offense ∈ (audit.run formula provenance).1.offenses,
      ∀ fix, offense.fix = some fix → fix.Within formula.source := by
    intro offense reported fix has
    rcases exists_sound_draft builtIn reported with
      ⟨rule, -, site, met, draft, sound, -, fixEq⟩
    have contained := Node.contains_of_linked (Node.linked_of_mem_walk met)
    have placed : site.Placed formula.source :=
      ⟨laidOut.of_contains contained, ordered site.node contained⟩
    exact sound.within placed fix (fixEq.symm.trans has)
  exact ⟨within, Correction.staysIn_ofOffenses within⟩

def rebuildFormula : Formula where
  source := "rebuild 0"
  root := ⟨"program", true, none, ⟨1, 0, 1, 9, 0, 9⟩, "rebuild 0", [
    ⟨"call", true, none, ⟨1, 0, 1, 9, 0, 9⟩, "rebuild 0", [
      ⟨"identifier", true, some "method", ⟨1, 0, 1, 7, 0, 7⟩, "rebuild", []⟩,
      ⟨"argument_list", true, some "arguments", ⟨1, 8, 1, 9, 8, 9⟩, "0", [
        ⟨"integer", true, none, ⟨1, 8, 1, 9, 8, 9⟩, "0", []⟩]⟩]⟩]⟩
  hasError := false

def rebuildAudit : Audit where
  catalogue := .ofFaultless [Rules.zeroRebuild] (by decide)
  configuration := {}

theorem staysIn_rebuildFormula :
    (∀ rule ∈ rebuildAudit.catalogue.rules, rule ∈ Rules.builtIn) ∧
      rebuildFormula.root.LaidOutBelow rebuildFormula.source ∧
      (∀ node, rebuildFormula.root.Contains node → node.InGrammarOrder) ∧
      let report := (rebuildAudit.run rebuildFormula (rebuildFormula.provenance none)).1
      (Correction.ofOffenses report.offenses).StaysIn rebuildFormula.source ∧
        (Correction.ofOffenses report.offenses).splice? rebuildFormula.source = some "" := by
  have builtIn : ∀ rule ∈ rebuildAudit.catalogue.rules, rule ∈ Rules.builtIn :=
    List.forall_mem_singleton.mpr (List.mem_of_getElem? (i := 14) rfl)
  have laidOut : rebuildFormula.root.LaidOutBelow rebuildFormula.source := by
    simp only [rebuildFormula, Node.LaidOutBelow, Node.forall_contains_iff, List.forall_mem_cons,
      List.not_mem_nil, false_implies, implies_true, and_true]
    decide
  have ordered : ∀ node, rebuildFormula.root.Contains node → node.InGrammarOrder := by
    simp only [rebuildFormula, Node.forall_contains_iff, List.forall_mem_cons, List.not_mem_nil,
      false_implies, implies_true, and_true]
    refine ⟨?_, ?_, ?_, ?_, ?_⟩
    all_goals exact Node.inGrammarOrder_of_fields rfl rfl rfl
  exact ⟨builtIn, laidOut, ordered,
    (staysIn_of_builtIn rebuildAudit builtIn rebuildFormula laidOut ordered _).2,
    by decide +kernel⟩

end FormulaLint.Audit
