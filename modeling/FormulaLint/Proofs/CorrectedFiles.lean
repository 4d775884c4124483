import FormulaLint.Proofs.BuiltInFixes
import FormulaLint.Proofs.DiskFrame
import FormulaLint.Proofs.StoredText
import FormulaLint.Visit

/-! What a correcting visit leaves on the disk. No other file changes, and the file of the formula
is written only if some fix is accepted. It then holds the text that was read, with the accepted
stretches replaced; outside of them it is what was stored just if no carriage return was there. -/

namespace FormulaLint

variable {disk : Disk} {path : Path} {bytes : ByteArray} {text : String}

theorem Disk.readFormula_of_read (held : disk.read path = .ok (some bytes))
    (decoded : Text.decode bytes = .ok text) :
    disk.readFormula path = .ok (Text.unified text) := by
  simp only [Disk.readFormula, held, decoded]
  rfl

/-! ## Plans for a file -/

namespace Correction

/-- A stored text with each stretch of a plan replaced and nothing else changed; the plan is one for
the text that is read. -/
def rewritten? (plan : Correction) (text : String) : Option String :=
  (Fix.writtenTexts? plan.fixes).map
    (Text.weave (Fix.gaps text 0 (plan.fixes.map (Fix.stored text))))

private theorem rewritten?_of_empty {plan : Correction} (empty : plan.fixes = []) (text : String) :
    plan.rewritten? text = some text := by
  have whole : Text.slice text 0 text.length = text := Text.slice_zero_length text
  simp [rewritten?, empty, Fix.writtenTexts?, Fix.gaps, Text.weave, whole]

theorem splice?_eq_rewritten?_iff {plan : Correction} (staysIn : plan.StaysIn (Text.unified text))
    (texts : (plan.splice? (Text.unified text)).isSome = true) :
    plan.splice? (Text.unified text) = plan.rewritten? text ↔
      Fix.CoverReturns text plan.fixes := by
  rcases Option.isSome_iff_exists.mp texts with ⟨after, spliced⟩
  rw [staysIn.spliced] at spliced
  rcases Option.map_eq_some_iff.mp spliced with ⟨written, found, -⟩
  rw [staysIn.spliced, rewritten?, found, Option.map_some, Option.map_some, Option.some_inj]
  exact Fix.weave_gaps_unified_iff staysIn.ascending found

end Correction

/-! ## Visits -/

/-- What becomes of a report and the disk when the file it is about is corrected: without fixes
nothing is done, a plan that does not apply stops the run, and any other plan is written. -/
inductive FormulaReport.Corrected (plan : Correction) (source : String) (path : Path)
    (disk : Disk) (outcome : Outcome FormulaReport) : Prop where
  | untouched (empty : plan.fixes = []) (succeeds : outcome.result.isOk = true)
      (same : outcome.disk = disk)
  | stopped (fixes : plan.fixes ≠ []) (refused : plan.splice? source = none)
      (fails : outcome.result.isOk = false) (same : outcome.disk = disk)
  | written (fixes : plan.fixes ≠ []) (text : String) (spliced : plan.splice? source = some text)
      (succeeds : outcome.result.isOk = true)
      (stored : outcome.disk.read path = .ok (some text.toUTF8))
      (elsewhere : ∀ other, disk.locate other ≠ disk.locate path →
        outcome.disk.read other = disk.read other)

namespace FormulaReport.Corrected

variable {plan : Correction} {source : String} {outcome : Outcome FormulaReport}

theorem elsewhere (corrected : Corrected plan source path disk outcome) (other : Path)
    (apart : disk.locate other ≠ disk.locate path) :
    outcome.disk.read other = disk.read other := by
  cases corrected with
  | untouched empty succeeds same => rw [same]
  | stopped fixes refused fails same => rw [same]
  | written fixes text spliced succeeds stored frame => exact frame other apart

private theorem disk_eq_of_fails (corrected : Corrected plan source path disk outcome)
    (fails : outcome.result.isOk = false) : outcome.disk = disk := by
  cases corrected with
  | untouched empty succeeds same => exact same
  | stopped fixes refused fails same => exact same
  | written fixes text spliced succeeds stored frame =>
      rw [succeeds] at fails
      cases fails

private theorem disk_eq_of_empty (corrected : Corrected plan source path disk outcome)
    (empty : plan.fixes = []) : outcome.disk = disk := by
  cases corrected with
  | untouched _ _ same => exact same
  | stopped fixes refused fails same => exact same
  | written fixes text spliced succeeds stored frame => exact absurd empty fixes

theorem read_eq (corrected : Corrected plan source path disk outcome)
    (succeeds : outcome.result.isOk = true) (fixes : plan.fixes ≠ []) :
    outcome.disk.read path = .ok ((plan.splice? source).map String.toUTF8) := by
  cases corrected with
  | untouched empty _ _ => exact absurd empty fixes
  | stopped _ refused fails same =>
      rw [fails] at succeeds
      cases succeeds
  | written _ text spliced _ stored frame =>
      rw [stored, spliced]
      rfl

theorem isOk_iff (corrected : Corrected plan source path disk outcome) :
    outcome.result.isOk = true ↔ ∀ fix ∈ plan.fixes, fix.replacement.text?.isSome = true := by
  rw [← List.all_eq_true, ← plan.isSome_splice? source]
  cases corrected with
  | untouched empty succeeds same => simp [succeeds, Correction.isSome_splice?, empty]
  | stopped fixes refused fails same => simp [fails, refused]
  | written fixes text spliced succeeds stored frame => simp [succeeds, spliced]

end FormulaReport.Corrected

theorem FormulaReport.corrected_correct (report : FormulaReport) (source : String)
    (held : disk.read path = .ok (some bytes)) :
    Corrected (.ofOffenses report.offenses) source path disk
      (report.correct source path disk) := by
  rw [FormulaReport.correct]
  by_cases empty : (Correction.ofOffenses report.offenses).fixes = []
  · rw [empty]
    exact .untouched empty rfl rfl
  · rw [List.isEmpty_eq_false_iff.mpr empty]
    cases spliced : (Correction.ofOffenses report.offenses).splice? source with
    | none => exact .stopped empty spliced rfl rfl
    | some text =>
        rcases Disk.write_of_read held text.toUTF8 with ⟨left, written, stored, elsewhere⟩
        dsimp only
        rw [written]
        exact .written empty text spliced rfl stored elsewhere

namespace Audit

def correction (audit : Audit) (formula : Formula) (path : Path) : Correction :=
  .ofOffenses (audit.examine formula (some path.text)).1.offenses

theorem corrected_examineFile (audit : Audit) {languages : Languages} {formula : Formula}
    (held : disk.read path = .ok (some bytes)) (decoded : Text.decode bytes = .ok text)
    (parsed : languages.parse (Text.unified text) = .ok formula) :
    FormulaReport.Corrected (audit.correction formula path) (Text.unified text) path disk
      (audit.examineFile languages true path disk) := by
  have corrected := (audit.examine formula (some path.text)).1.corrected_correct
    (Text.unified text) held
  simp only [examineFile, Disk.readFormula_of_read held decoded, parsed, if_true]
  cases corrected with
  | untouched empty succeeds same => exact .untouched empty succeeds same
  | stopped fixes refused fails same => exact .stopped fixes refused fails same
  | written fixes text spliced succeeds stored elsewhere =>
      exact .written fixes text spliced succeeds stored elsewhere

/-- A correcting visit of a file of text leaves all other files as they are, and the whole disk if
it fails. It succeeds just if the accepted replacements are texts. Then the file is left alone if no
fix is accepted, and otherwise gets the text that was read with the fixes put in. With all fixes in
that text, these are the stored bytes with nothing but the accepted stretches replaced just if no
fix is accepted or the accepted ones cover all carriage returns. -/
theorem examineFile_rewrites_iff (audit : Audit) (languages : Languages) (disk : Disk)
    (path : Path) (bytes : ByteArray) (text : String) (held : disk.read path = .ok (some bytes))
    (decoded : Text.decode bytes = .ok text) :
    let outcome := audit.examineFile languages true path disk
    (∀ other, disk.locate other ≠ disk.locate path →
        outcome.disk.read other = disk.read other) ∧
      (outcome.result.isOk = false → outcome.disk = disk) ∧
      ∀ formula, languages.parse (Text.unified text) = .ok formula →
        let plan := audit.correction formula path
        (outcome.result.isOk = true ↔
            ∀ fix ∈ plan.fixes, fix.replacement.text?.isSome = true) ∧
          (outcome.result.isOk = true → plan.fixes = [] → outcome.disk = disk) ∧
          (outcome.result.isOk = true → plan.fixes ≠ [] →
            outcome.disk.read path =
              .ok ((plan.splice? (Text.unified text)).map String.toUTF8)) ∧
          (outcome.result.isOk = true →
            (∀ offense ∈ (audit.examine formula (some path.text)).1.offenses,
              ∀ fix, offense.fix = some fix → fix.Within (Text.unified text)) →
            (outcome.disk.read path = .ok ((plan.rewritten? text).map String.toUTF8) ↔
              plan.fixes = [] ∨ Fix.CoverReturns text plan.fixes)) := by
  intro outcome
  cases parsed : languages.parse (Text.unified text) with
  | error failure =>
      have same : outcome = ⟨.error failure, [], disk⟩ := by
        simp only [outcome, examineFile, Disk.readFormula_of_read held decoded, parsed]
      rw [same]
      exact ⟨fun _ _ => rfl, fun _ => rfl, fun _ otherwise => nomatch otherwise⟩
  | ok formula =>
      have corrected : FormulaReport.Corrected (audit.correction formula path)
          (Text.unified text) path disk outcome :=
        audit.corrected_examineFile held decoded parsed
      refine ⟨corrected.elsewhere, corrected.disk_eq_of_fails, ?_⟩
      rintro formula' same
      cases same
      refine ⟨corrected.isOk_iff, fun _ => corrected.disk_eq_of_empty, corrected.read_eq, ?_⟩
      intro succeeds within
      have staysIn : (audit.correction formula path).StaysIn (Text.unified text) :=
        Correction.staysIn_ofOffenses within
      by_cases empty : (audit.correction formula path).fixes = []
      · have stored : bytes = text.toUTF8 := Text.decode_eq_ok_iff.mp decoded
        rw [corrected.disk_eq_of_empty empty, held, Correction.rewritten?_of_empty empty, stored,
          Option.map_some]
        exact ⟨fun _ => .inl empty, fun _ => rfl⟩
      · have texts :
            ((audit.correction formula path).splice? (Text.unified text)).isSome = true := by
          rw [Correction.isSome_splice?, List.all_eq_true]
          exact corrected.isOk_iff.mp succeeds
        rw [corrected.read_eq succeeds empty, Except.ok.injEq,
          (Option.map_injective Text.toUTF8_injective).eq_iff,
          Correction.splice?_eq_rewritten?_iff staysIn texts]
        exact ⟨.inr, fun either => either.resolve_left empty⟩

/-! ## A formula of two lines -/

def namedRebuildFormula : Formula where
  source := "rebuild 0\nx\n"
  root := ⟨"program", true, none, ⟨1, 0, 3, 0, 0, 12⟩, "rebuild 0\nx\n", [
    ⟨"call", true, none, ⟨1, 0, 1, 9, 0, 9⟩, "rebuild 0", [
      ⟨"identifier", true, some "method", ⟨1, 0, 1, 7, 0, 7⟩, "rebuild", []⟩,
      ⟨"argument_list", true, some "arguments", ⟨1, 8, 1, 9, 8, 9⟩, "0", [
        ⟨"integer", true, none, ⟨1, 8, 1, 9, 8, 9⟩, "0", []⟩]⟩]⟩,
    ⟨"identifier", true, none, ⟨2, 0, 2, 1, 10, 11⟩, "x", []⟩]⟩
  hasError := false

def namedRebuildLanguages : Languages where
  grammar _ := {
    root := ⟨"program", true, none, 0, 12, [
      ⟨"call", true, none, 0, 9, [
        ⟨"identifier", true, some "method", 0, 7, []⟩,
        ⟨"argument_list", true, some "arguments", 8, 9, [⟨"integer", true, none, 8, 9, []⟩]⟩]⟩,
      ⟨"identifier", true, none, 10, 11, []⟩]⟩
    hasError := false }
  document _ := .error (.invalid "")

def namedRebuildPath : Path := ⟨0, ["foo.rb"]⟩

def namedRebuildDisk (text : String) : Disk :=
  ⟨.folder [("foo.rb", .file text.toUTF8)], []⟩

private theorem within_namedRebuild :
    ∀ offense ∈ (rebuildAudit.examine namedRebuildFormula
        (some namedRebuildPath.text)).1.offenses,
      ∀ fix, offense.fix = some fix → fix.Within "rebuild 0\nx\n" := by
  have inside : ((rebuildAudit.examine namedRebuildFormula
      (some namedRebuildPath.text)).1.offenses.all fun offense => offense.fix.all fun fix =>
        decide (0 ≤ fix.start ∧ fix.start ≤ fix.stop ∧ fix.stop ≤ 12)) = true := by
    decide +kernel
  intro offense reported fix has
  have ends := List.all_eq_true.mp inside offense reported
  rw [has, Option.all_some, decide_eq_true_eq] at ends
  exact ⟨ends.1, ends.2.1, ends.2.2⟩

theorem fixes_namedRebuild :
    (rebuildAudit.correction namedRebuildFormula namedRebuildPath).fixes ≠ [] := by
  rw [← List.isEmpty_eq_false_iff]
  decide +kernel

theorem read_namedRebuild (text : String) (lines : Text.unified text = "rebuild 0\nx\n") :
    let outcome := rebuildAudit.examineFile namedRebuildLanguages true namedRebuildPath
      (namedRebuildDisk text)
    outcome.result.isOk = true ∧
      outcome.disk.read namedRebuildPath = .ok (some "x\n".toUTF8) := by
  intro outcome
  have parsed : namedRebuildLanguages.parse (Text.unified text) = .ok namedRebuildFormula := by
    rw [lines]
    rfl
  have corrected : FormulaReport.Corrected
      (rebuildAudit.correction namedRebuildFormula namedRebuildPath) (Text.unified text)
      namedRebuildPath (namedRebuildDisk text) outcome :=
    rebuildAudit.corrected_examineFile rfl (Text.decode_eq_ok_iff.mpr rfl) parsed
  have succeeds : outcome.result.isOk = true := by
    rw [corrected.isOk_iff, ← List.all_eq_true]
    decide +kernel
  have spliced : (rebuildAudit.correction namedRebuildFormula namedRebuildPath).splice?
      "rebuild 0\nx\n" = some "x\n" := by
    decide +kernel
  have stored := corrected.read_eq succeeds fixes_namedRebuild
  rw [lines, spliced] at stored
  exact ⟨succeeds, stored⟩

/-- Where only the line that is deleted ends in a carriage return, the rest is what was stored. -/
theorem rewrites_namedRebuild :
    let outcome := rebuildAudit.examineFile namedRebuildLanguages true namedRebuildPath
      (namedRebuildDisk "rebuild 0\r\nx\n")
    let plan := rebuildAudit.correction namedRebuildFormula namedRebuildPath
    outcome.result.isOk = true ∧ outcome.disk.read namedRebuildPath = .ok (some "x\n".toUTF8) ∧
      Fix.CoverReturns "rebuild 0\r\nx\n" plan.fixes := by
  intro outcome plan
  have held : (namedRebuildDisk "rebuild 0\r\nx\n").read namedRebuildPath =
      .ok (some "rebuild 0\r\nx\n".toUTF8) := rfl
  have decoded : Text.decode "rebuild 0\r\nx\n".toUTF8 = .ok "rebuild 0\r\nx\n" :=
    Text.decode_eq_ok_iff.mpr rfl
  have rewritten : plan.rewritten? "rebuild 0\r\nx\n" = some "x\n" := by
    decide +kernel
  rcases read_namedRebuild "rebuild 0\r\nx\n" rfl with ⟨succeeds, stored⟩
  rcases examineFile_rewrites_iff rebuildAudit namedRebuildLanguages _ namedRebuildPath _ _ held
    decoded with ⟨-, -, visited⟩
  rcases visited namedRebuildFormula rfl with ⟨-, -, -, faithful⟩
  have covers := faithful succeeds within_namedRebuild
  rw [rewritten] at covers
  exact ⟨succeeds, stored, (covers.mp stored).resolve_left fixes_namedRebuild⟩

/-- Where both lines end in a carriage return and a line feed, the line that is kept loses its
carriage return. -/
theorem not_rewritten_namedRebuild :
    let disk := namedRebuildDisk "rebuild 0\r\nx\r\n"
    let outcome := rebuildAudit.examineFile namedRebuildLanguages true namedRebuildPath disk
    let plan := rebuildAudit.correction namedRebuildFormula namedRebuildPath
    disk.read namedRebuildPath = .ok (some "rebuild 0\r\nx\r\n".toUTF8) ∧
      outcome.result.isOk = true ∧ outcome.disk.read namedRebuildPath = .ok (some "x\n".toUTF8) ∧
      plan.rewritten? "rebuild 0\r\nx\r\n" = some "x\r\n" ∧
      outcome.disk.read namedRebuildPath ≠
        .ok ((plan.rewritten? "rebuild 0\r\nx\r\n").map String.toUTF8) := by
  intro disk outcome plan
  have rewritten : plan.rewritten? "rebuild 0\r\nx\r\n" = some "x\r\n" := by
    decide +kernel
  rcases read_namedRebuild "rebuild 0\r\nx\r\n" rfl with ⟨succeeds, stored⟩
  refine ⟨rfl, succeeds, stored, rewritten, ?_⟩
  rw [rewritten]
  intro same
  have equal := Text.toUTF8_injective (Option.some.inj (Except.ok.inj (stored.symm.trans same)))
  exact absurd equal (by decide)

end Audit

end FormulaLint
