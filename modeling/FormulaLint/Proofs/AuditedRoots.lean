import FormulaLint.Proofs.CorrectedFiles
import FormulaLint.Proofs.ListedFiles

/-! What a run leaves on the disk. The files below the roots are visited in the order in which they
are listed. A visit rewrites its file if corrections are wanted and some fix is accepted, and does
nothing else; one that fails does nothing at all and ends the run. -/

namespace FormulaLint.Audit

/-! ## Visits and runs, told by what is read and what is planned -/

def reportFor (audit : Audit) (correcting : Bool) (formula : Formula) (path : Path) :
    FormulaReport :=
  let report := (audit.examine formula (some path.text)).1
  if correcting then { report with offenses := (audit.correction formula path).offenses }
  else report

/-- A visit that succeeds: without a fix to put in, or without the wish for it, the disk stays as it
is, and otherwise the file holds the text just read with the plan put in. -/
inductive Visits (audit : Audit) (languages : Languages) (correcting : Bool) (path : Path)
    (before : Disk) : FormulaReport → Disk → Prop where
  | kept {source : String} {formula : Formula} (reads : before.readFormula path = .ok source)
      (parses : languages.parse source = .ok formula)
      (settled : correcting = true → (audit.correction formula path).fixes = []) :
      Visits audit languages correcting path before (audit.reportFor correcting formula path) before
  | rewritten {source text : String} {formula : Formula} {after : Disk}
      (reads : before.readFormula path = .ok source)
      (parses : languages.parse source = .ok formula) (wanted : correcting = true)
      (fixes : (audit.correction formula path).fixes ≠ [])
      (applies : (audit.correction formula path).splice? source = some text)
      (rewrites : before.Rewrites after path text.toUTF8) :
      Visits audit languages correcting path before (audit.reportFor correcting formula path) after

/-- A visit that fails: the file cannot be read or its text parsed, or a plan that is wanted does
not apply. -/
inductive Refuses (audit : Audit) (languages : Languages) (correcting : Bool) (path : Path)
    (disk : Disk) : Failure → Prop where
  | unread {failure : Failure} (reads : disk.readFormula path = .error failure) :
      Refuses audit languages correcting path disk failure
  | unparsed {source : String} {failure : Failure} (reads : disk.readFormula path = .ok source)
      (parses : languages.parse source = .error failure) :
      Refuses audit languages correcting path disk failure
  | unapplied {source : String} {formula : Formula} (reads : disk.readFormula path = .ok source)
      (parses : languages.parse source = .ok formula) (wanted : correcting = true)
      (fixes : (audit.correction formula path).fixes ≠ [])
      (applies : (audit.correction formula path).splice? source = none) :
      Refuses audit languages correcting path disk .replacementNotText

/-- Visits that succeed, one after another, each of them on the disk that the one before it left. -/
inductive Passes (audit : Audit) (languages : Languages) (correcting : Bool) :
    List Path → Disk → List FormulaReport → Disk → Prop where
  | done {disk : Disk} : Passes audit languages correcting [] disk [] disk
  | visit {path : Path} {rest : List Path} {report : FormulaReport} {reports : List FormulaReport}
      {before middle after : Disk}
      (first : audit.Visits languages correcting path before report middle)
      (later : Passes audit languages correcting rest middle reports after) :
      Passes audit languages correcting (path :: rest) before (report :: reports) after

variable {audit : Audit} {languages : Languages} {correcting : Bool}
variable {path : Path} {paths : List Path} {disk before after : Disk}
variable {report : FormulaReport} {reports : List FormulaReport}

/-! ## What visits keep -/

namespace Visits

theorem locates (visit : audit.Visits languages correcting path before report after)
    (other : Path) : after.locate other = before.locate other := by
  cases visit with
  | kept reads parses settled => rfl
  | rewritten reads parses wanted fixes applies rewrites => exact rewrites.locates other

theorem lists (visit : audit.Visits languages correcting path before report after)
    (suffixes : List String) (roots : List Path) :
    after.formulas suffixes roots = before.formulas suffixes roots := by
  cases visit with
  | kept reads parses settled => rfl
  | rewritten reads parses wanted fixes applies rewrites => exact rewrites.lists suffixes roots

theorem elsewhere (visit : audit.Visits languages correcting path before report after)
    {other : Path} (apart : before.locate other ≠ before.locate path) :
    after.read other = before.read other := by
  cases visit with
  | kept reads parses settled => rfl
  | rewritten reads parses wanted fixes applies rewrites => exact rewrites.elsewhere other apart

theorem disk_eq (visit : audit.Visits languages false path before report after) :
    after = before := by
  cases visit with
  | kept reads parses settled => rfl
  | rewritten reads parses wanted fixes applies rewrites => cases wanted

theorem exists_read (visit : audit.Visits languages correcting path before report after)
    {other : Path} (held : ∃ bytes, before.read other = .ok (some bytes)) :
    ∃ bytes, after.read other = .ok (some bytes) := by
  cases visit with
  | kept reads parses settled => exact held
  | @rewritten source text formula after reads parses wanted fixes applies rewrites =>
      by_cases same : before.locate other = before.locate path
      · have reached : after.locate other = after.locate path := by
          rw [rewrites.locates, rewrites.locates, same]
        have stored : after.read other = after.read path := by
          rw [Disk.read_eq, Disk.read_eq, reached]
        exact ⟨text.toUTF8, stored.trans rewrites.stored⟩
      · rwa [rewrites.elsewhere other same]

end Visits

namespace Passes

theorem lists (passes : audit.Passes languages correcting paths before reports after)
    (suffixes : List String) (roots : List Path) :
    after.formulas suffixes roots = before.formulas suffixes roots := by
  induction passes with
  | done => rfl
  | visit first later induction => rw [induction, first.lists]

theorem elsewhere (passes : audit.Passes languages correcting paths before reports after)
    {other : Path} (apart : ∀ path ∈ paths, before.locate other ≠ before.locate path) :
    after.read other = before.read other := by
  induction passes with
  | done => rfl
  | visit first later induction =>
      rcases List.forall_mem_cons.mp apart with ⟨here, below⟩
      rw [induction, first.elsewhere here]
      intro path member
      rw [first.locates, first.locates]
      exact below path member

theorem disk_eq (passes : audit.Passes languages false paths before reports after) :
    after = before := by
  induction passes with
  | done => rfl
  | visit first later induction => rw [induction, first.disk_eq]

theorem paths_eq (passes : audit.Passes languages correcting paths before reports after) :
    reports.map (·.path) = paths.map fun path => some path.text := by
  induction passes with
  | done => rfl
  | visit first later induction =>
      rw [List.map_cons, List.map_cons, induction]
      cases first <;> cases correcting <;> rfl

end Passes

/-! ## Runs -/

section

variable (audit : Audit) (languages : Languages) (correcting : Bool)

theorem settled_or_unapplied {source : String} {formula : Formula} {bytes : ByteArray}
    (held : disk.read path = .ok (some bytes)) (reads : disk.readFormula path = .ok source)
    (parses : languages.parse source = .ok formula) :
    let outcome := (audit.examine formula (some path.text)).1.correct source path disk
    (outcome.result = .ok (audit.reportFor true formula path) ∧
        audit.Visits languages true path disk (audit.reportFor true formula path) outcome.disk) ∨
      outcome.result = .error .replacementNotText ∧
        audit.Refuses languages true path disk .replacementNotText ∧ outcome.disk = disk := by
  intro outcome
  have planned : audit.correction formula path =
      .ofOffenses (audit.examine formula (some path.text)).1.offenses := rfl
  by_cases empty : (audit.correction formula path).fixes = []
  · have same : outcome.disk = disk := by
      simp only [outcome, FormulaReport.correct, ← planned, empty, List.isEmpty_nil, if_true]
    rw [same]
    refine .inl ⟨?_, .kept reads parses fun _ => empty⟩
    simp only [outcome, FormulaReport.correct, ← planned, empty, List.isEmpty_nil, if_true]
    rfl
  · have some : (audit.correction formula path).fixes.isEmpty = false :=
      List.isEmpty_eq_false_iff.mpr empty
    cases applies : (audit.correction formula path).splice? source with
    | none =>
        have stopped : outcome.result = .error .replacementNotText ∧ outcome.disk = disk := by
          simp only [outcome, FormulaReport.correct, ← planned, some, Bool.false_eq_true, if_false,
            applies, and_self]
        exact .inr ⟨stopped.1, .unapplied reads parses rfl empty applies, stopped.2⟩
    | some text =>
        rcases Disk.rewrites_of_read held text.toUTF8 with ⟨left, written, rewrites⟩
        have settled : outcome.result = .ok (audit.reportFor true formula path) ∧
            outcome.disk = left := by
          simp only [outcome, FormulaReport.correct, ← planned, some, Bool.false_eq_true, if_false,
            applies, written, and_true]
          rfl
        rw [settled.2]
        exact .inl ⟨settled.1, .rewritten reads parses rfl empty applies rewrites⟩

/-- A visit of a file either succeeds or fails; if it fails, the disk stays as it is. -/
theorem visits_or_refuses {bytes : ByteArray} (held : disk.read path = .ok (some bytes)) :
    let outcome := audit.examineFile languages correcting path disk
    (∃ report, outcome.result = .ok report ∧
        audit.Visits languages correcting path disk report outcome.disk) ∨
      ∃ failure, outcome.result = .error failure ∧
        audit.Refuses languages correcting path disk failure ∧ outcome.disk = disk := by
  intro outcome
  cases reads : disk.readFormula path with
  | error failure =>
      have stopped : outcome = ⟨.error failure, [], disk⟩ := by
        simp only [outcome, examineFile, reads]
      rw [stopped]
      exact .inr ⟨failure, rfl, .unread reads, rfl⟩
  | ok source =>
      cases parses : languages.parse source with
      | error failure =>
          have stopped : outcome = ⟨.error failure, [], disk⟩ := by
            simp only [outcome, examineFile, reads, parses]
          rw [stopped]
          exact .inr ⟨failure, rfl, .unparsed reads parses, rfl⟩
      | ok formula =>
          cases correcting with
          | false =>
              have kept : outcome.result = .ok (audit.reportFor false formula path) ∧
                  outcome.disk = disk := by
                simp only [outcome, examineFile, reads, parses]
                exact ⟨rfl, rfl⟩
              rw [kept.2]
              have settled : false = true →
                  (audit.correction formula path).fixes = [] :=
                fun wanted => absurd wanted Bool.false_ne_true
              exact .inl ⟨_, kept.1, .kept reads parses settled⟩
          | true =>
              have corrected := settled_or_unapplied audit languages held reads parses
              have result : outcome.result =
                  ((audit.examine formula (some path.text)).1.correct source path disk).result := by
                simp only [outcome, examineFile, reads, parses, if_true]
              have left : outcome.disk =
                  ((audit.examine formula (some path.text)).1.correct source path disk).disk := by
                simp only [outcome, examineFile, reads, parses, if_true]
              rw [result, left]
              rcases corrected with ⟨succeeds, visit⟩ | ⟨fails, refuses, same⟩
              · exact .inl ⟨_, succeeds, visit⟩
              · exact .inr ⟨_, fails, refuses, same⟩

/-- A run visits its files in turn up to the first visit that fails. -/
theorem passes_examineFiles (files : ∀ path ∈ paths, ∃ bytes, disk.read path = .ok (some bytes))
    (result : RunReport) :
    let outcome := audit.examineFiles languages correcting paths result disk
    ∃ visited reports, audit.Passes languages correcting visited disk reports outcome.disk ∧
      (visited = paths ∧ outcome.result = .ok (reports.foldl RunReport.add result) ∨
        ∃ path rest failure, visited ++ path :: rest = paths ∧
          audit.Refuses languages correcting path outcome.disk failure ∧
          outcome.result = .error failure) := by
  induction paths generalizing disk result with
  | nil => exact ⟨[], [], .done, .inl ⟨rfl, rfl⟩⟩
  | cons path rest induction =>
      rcases List.forall_mem_cons.mp files with ⟨⟨bytes, held⟩, later⟩
      have either := visits_or_refuses audit languages correcting held
      rw [examineFiles]
      generalize audit.examineFile languages correcting path disk = visited at either ⊢
      rcases visited with ⟨outcome, noticed, left⟩
      dsimp only at either
      rcases either with ⟨report, rfl, visit⟩ | ⟨failure, rfl, refuses, rfl⟩
      · rcases induction (fun other member => visit.exists_read (later other member))
          (result.add report) with ⟨visited, reports, passes, ending⟩
        refine ⟨path :: visited, report :: reports, .visit visit passes, ?_⟩
        rcases ending with ⟨rfl, succeeds⟩ | ⟨failing, others, failure, rfl, refuses, fails⟩
        · exact .inl ⟨rfl, succeeds⟩
        · exact .inr ⟨failing, others, failure, rfl, refuses, fails⟩
      · exact ⟨[], [], .done, .inr ⟨path, rest, failure, rfl, refuses, rfl⟩⟩

end

/-- A run over roots visits the listed files in their order, each on the disk that the earlier visits
have left, where the same files are listed. It succeeds with the reports of all visits, or it ends
at one that fails; then the disk is what the visits before that one have left. What was not visited
is as it was, and so is the whole disk if no corrections are wanted. -/
theorem passes_examineRoots (audit : Audit) (languages : Languages) (correcting : Bool)
    (roots : List Path) (disk : Disk) (wellNamed : disk.tree.WellNamed) :
    let paths := disk.formulas formulaSuffixes roots
    let outcome := audit.examineRoots languages correcting roots disk
    ∃ visited reports,
      audit.Passes languages correcting visited disk reports outcome.disk ∧
        reports.map (·.path) = visited.map (fun path => some path.text) ∧
        (visited = paths ∧ outcome.result = .ok (.ofReports reports) ∨
          ∃ path rest failure, visited ++ path :: rest = paths ∧
            audit.Refuses languages correcting path outcome.disk failure ∧
            outcome.result = .error failure) ∧
        (∀ front seen left, audit.Passes languages correcting front disk seen left →
          ∀ suffixes others, left.formulas suffixes others = disk.formulas suffixes others) ∧
        (∀ other, (∀ path ∈ visited, disk.locate other ≠ disk.locate path) →
          outcome.disk.read other = disk.read other) ∧
        (correcting = false → outcome.disk = disk) := by
  intro paths outcome
  have files : ∀ path ∈ paths, ∃ bytes, disk.read path = .ok (some bytes) :=
    fun path listed => Disk.exists_read_of_mem_formulas wellNamed listed
  rcases passes_examineFiles audit languages correcting files {} with
    ⟨visited, reports, passes, ending⟩
  refine ⟨visited, reports, passes, passes.paths_eq, ending, ?_, ?_, ?_⟩
  · exact fun front seen left earlier => earlier.lists
  · exact fun other apart => passes.elsewhere apart
  · rintro rfl
    exact passes.disk_eq

def brokenTapDisk : Disk where
  tree := .folder [("Formula", .folder [("z.rb", .file ⟨#[0xff]⟩),
    ("a.rb", .file "rebuild 0\nx\n".toUTF8)])]
  current := []

private theorem wellNamed_brokenTapDisk : brokenTapDisk.tree.WellNamed := by
  simp only [brokenTapDisk, FileTree.WellNamed.folder_iff, List.forall_mem_cons, List.not_mem_nil,
    false_implies, implies_true, and_true, FileTree.wellNamed_file]
  decide

/-- The formula is corrected before the other file ends the run. -/
theorem passes_brokenTapDisk :
    brokenTapDisk.tree.WellNamed ∧
      let outcome := rebuildAudit.examineRoots namedRebuildLanguages true [⟨0, ["Formula"]⟩]
        brokenTapDisk
      ∃ visited reports,
        rebuildAudit.Passes namedRebuildLanguages true visited brokenTapDisk reports outcome.disk ∧
          (∃ path rest failure,
            visited ++ path :: rest = [⟨0, ["Formula", "a.rb"]⟩, ⟨0, ["Formula", "z.rb"]⟩] ∧
              rebuildAudit.Refuses namedRebuildLanguages true path outcome.disk failure ∧
              outcome.result = .error failure) ∧
          outcome.disk.read ⟨0, ["Formula", "a.rb"]⟩ = .ok (some "x\n".toUTF8) := by
  refine ⟨wellNamed_brokenTapDisk, ?_⟩
  intro outcome
  have fails : outcome.result.isOk = false := by
    decide +kernel
  have listed : brokenTapDisk.formulas formulaSuffixes [⟨0, ["Formula"]⟩] =
      [⟨0, ["Formula", "a.rb"]⟩, ⟨0, ["Formula", "z.rb"]⟩] := by
    decide +kernel
  have stored : outcome.disk.read ⟨0, ["Formula", "a.rb"]⟩ = .ok (some "x\n".toUTF8) := by
    decide +kernel
  rcases passes_examineRoots rebuildAudit namedRebuildLanguages true [⟨0, ["Formula"]⟩]
    brokenTapDisk wellNamed_brokenTapDisk with ⟨visited, reports, passes, -, ending, -, -, -⟩
  rw [listed] at ending
  refine ⟨visited, reports, passes, ending.resolve_left ?_, stored⟩
  rintro ⟨-, succeeds⟩
  rw [show outcome.result = _ from succeeds] at fails
  cases fails

end FormulaLint.Audit
