import FormulaLint.Proofs.CountedOffenses
import FormulaLint.Report.Table
import Mathlib.Data.Nat.Digits.Defs

/-! What the report for people shows, letter by letter. The offenses of all files are gone through
one after another until the limit is reached, so that exactly the first ones are shown; the counts
below them are those of all files, whatever is shown. -/

namespace FormulaLint.RunReport

/-! ## The first offenses -/

/-- The offenses of all reports, each with the path of its own report. -/
def located (reports : List FormulaReport) : List (Option String × Offense) :=
  reports.flatMap fun report => report.offenses.map fun offense => (report.path, offense)

private theorem map_snd_located (reports : List FormulaReport) :
    (located reports).map (·.2) = reports.flatMap (·.offenses) := by
  simp only [located, List.map_flatMap, List.map_map, Function.comp_def, List.map_id']

namespace Excerpt

/-- What is shown when some offenses have been gone through. -/
def ofEntries (limit : Int) (entries : List (Option String × Offense)) : Excerpt where
  shown := (entries.take limit.toNat).length
  lines := (entries.take limit.toNat).flatMap fun entry => entryLines entry.1 entry.2

variable {limit : Int} {entries : List (Option String × Offense)}

theorem ofEntries_append_of_le (enough : limit.toNat ≤ entries.length)
    (others : List (Option String × Offense)) :
    ofEntries limit (entries ++ others) = ofEntries limit entries := by
  simp only [ofEntries, List.take_append_of_le_length enough]

private theorem ofEntries_concat_of_lt (room : entries.length < limit.toNat)
    (path : Option String) (offense : Offense) :
    ofEntries limit (entries ++ [(path, offense)]) =
      ⟨(ofEntries limit entries).shown + 1,
        (ofEntries limit entries).lines ++ entryLines path offense⟩ := by
  have all : (entries ++ [(path, offense)]).take limit.toNat = entries ++ [(path, offense)] := by
    apply List.take_of_length_le
    rw [List.length_append, List.length_singleton]
    omega
  simp only [ofEntries, all, List.take_of_length_le (Nat.le_of_lt room), List.length_append,
    List.length_singleton, List.flatMap_append, List.flatMap_singleton]

theorem limit_le_shown_iff :
    limit ≤ (ofEntries limit entries).shown ↔ limit.toNat ≤ entries.length := by
  have shown : (ofEntries limit entries).shown = min limit.toNat entries.length := List.length_take
  rw [shown]
  omega

/-- The offenses of one more file are shown as far as the limit admits. -/
theorem addOffenses_ofEntries (limit : Int) (path : Option String) (offenses : List Offense)
    (entries : List (Option String × Offense)) :
    (ofEntries limit entries).addOffenses limit path offenses =
      ofEntries limit (entries ++ offenses.map fun offense => (path, offense)) := by
  induction offenses generalizing entries with
  | nil => rw [addOffenses, List.map_nil, List.append_nil]
  | cons offense rest induction =>
      -- The excerpt is always that of the entries gone through, so either it takes in the next one
      -- or the limit is reached for good.
      rw [addOffenses]
      split
      · next reached =>
          rw [ofEntries_append_of_le (limit_le_shown_iff.mp reached)]
      · next room =>
          rw [limit_le_shown_iff, Nat.not_le] at room
          rw [← ofEntries_concat_of_lt room, induction, List.map_cons, List.append_assoc,
            List.singleton_append]

theorem foldl_addOffenses (limit : Int) (reports : List FormulaReport)
    (entries : List (Option String × Offense)) :
    reports.foldl
        (fun excerpt report => excerpt.addOffenses limit report.path report.offenses)
        (ofEntries limit entries) =
      ofEntries limit (entries ++ located reports) := by
  induction reports generalizing entries with
  | nil => rw [List.foldl_nil, located, List.flatMap_nil, List.append_nil]
  | cons report rest induction =>
      rw [List.foldl_cons, addOffenses_ofEntries, induction, List.append_assoc, located, located,
        List.flatMap_cons]

end Excerpt

private theorem offenseLines_ofReports (reports : List FormulaReport) (limit : Int) :
    (ofReports reports).offenseLines limit =
      ((located reports).take limit.toNat).flatMap fun entry => entryLines entry.1 entry.2 := by
  have start : ({} : Excerpt) = Excerpt.ofEntries limit [] := by
    simp only [Excerpt.ofEntries, List.take_nil, List.length_nil, List.flatMap_nil]
  rw [offenseLines, files_ofReports, start, Excerpt.foldl_addOffenses, List.nil_append]
  rfl

/-! ## The text of an entry -/

/-- The two lines about an offense: where it is, its severity, the rule, the message, and whether it
has been corrected; below, the line of source. -/
def entryTexts (path : Option String) (offense : Offense) : List String :=
  let file : String := match path with
    | none => "<source>"
    | some path => if path = "" then "<source>" else path
  let severity : String := match offense.severity with
    | .fatal => ": F: "
    | .error => ": E: "
    | .warning => ": W: "
    | .convention => ": C: "
  [file ++ ":" ++ toString offense.line ++ ":" ++ toString (offense.column + 1) ++ severity ++
      offense.rule ++ ": " ++ offense.message.display ++
      (if offense.corrected = true then " [Corrected]" else ""),
    "  " ++ offense.sourceLine]

private theorem entryLines_eq (path : Option String) (offense : Offense) :
    entryLines path offense = entryTexts path offense := by
  have file : shownPath path = match path with
      | none => "<source>"
      | some path => if path = "" then "<source>" else path := by
    cases path with
    | none => rfl
    | some path => simp only [shownPath, String.isEmpty_iff]
  simp only [entryLines, offenseLine, file, entryTexts]
  cases offense.severity <;> simp only [Severity.letter, String.append_assoc] <;> rfl

/-! ## The counts -/

def countText (count : Nat) : String :=
  if count < 10 then "    " ++ toString count
  else if count < 100 then "   " ++ toString count
  else if count < 1000 then "  " ++ toString count
  else if count < 10000 then " " ++ toString count
  else toString count

private theorem padLeft_of_length (blanks : Nat) {width : Nat} {text : String}
    (room : text.length + blanks = width) :
    padLeft width text = String.ofList (List.replicate blanks ' ') ++ text := by
  have missing : width - text.length = blanks := by omega
  rw [padLeft, missing]

private theorem padLeft_five (count : Nat) : padLeft 5 (toString count) = countText count := by
  have digits (width : Nat) (some : 0 < width) :
      (toString count).length ≤ width ↔ count < 10 ^ width := Nat.length_repr_le_iff some
  have none : 0 < (toString count).length := Nat.length_repr_pos
  have one := digits 1 (by decide)
  have two := digits 2 (by decide)
  have three := digits 3 (by decide)
  have four := digits 4 (by decide)
  rw [countText]
  split
  · exact padLeft_of_length 4 (by omega)
  · split
    · exact padLeft_of_length 3 (by omega)
    · split
      · exact padLeft_of_length 2 (by omega)
      · split
        · exact padLeft_of_length 1 (by omega)
        · have full : 5 - (toString count).length = 0 := by omega
          rw [padLeft, full]
          exact String.empty_append

def countTexts (files : Nat) (offenses : List Offense) : List String :=
  let count (severity : Severity) : Nat := offenses.countP (·.severity = severity)
  ["Audit Summary",
    "========================================",
    "Severity   | Count",
    "------------------",
    "fatal      | " ++ countText (count .fatal),
    "error      | " ++ countText (count .error),
    "warning    | " ++ countText (count .warning),
    "convention | " ++ countText (count .convention),
    "------------------",
    "Status    : " ++ (if offenses = [] then "PASS" else "FAIL"),
    "Files     : " ++ toString files,
    "Offenses  : " ++ toString offenses.length]

private theorem tableRow_severity (severity : Severity) (count : Nat) :
    tableRow severity.name (toString count) =
      (match severity with
        | .fatal => "fatal      | "
        | .error => "error      | "
        | .warning => "warning    | "
        | .convention => "convention | ") ++ countText count := by
  rw [tableRow, padLeft_five]
  cases severity <;> rfl

theorem countLines_ofReports (reports : List FormulaReport) :
    (ofReports reports).countLines =
      countTexts reports.length (reports.flatMap (·.offenses)) := by
  have counted (severity : Severity) : (ofReports reports).summary.count severity =
      (reports.flatMap (·.offenses)).countP (·.severity = severity) := by
    rw [counted_ofReports reports severity, offenses_ofReports]
  have total : (ofReports reports).summary.total = (reports.flatMap (·.offenses)).length := by
    rw [(counted_ofReports reports).total_eq, offenses_ofReports]
  have passed : ((ofReports reports).passed = true) = (reports.flatMap (·.offenses) = []) := by
    rw [RunReport.passed, total, decide_eq_true_eq, List.length_eq_zero_iff]
  have header : tableRow "Severity" "Count" = "Severity   | Count" := rfl
  simp only [countLines, Tally.rows, Severity.all, List.map_cons, List.map_nil, counted, passed,
    total, files_ofReports, tableRow_severity, header, countTexts, List.cons_append,
    List.nil_append]
  rfl

/-! ## The table -/

/-- The table shows the first offenses of all reports, as many as the limit admits and none if it is
negative, in their order and each under the path of its own report; the counts below them are those
of all reports, also of those behind the limit. -/
theorem table_ofReports (reports : List FormulaReport) (limit : Int) :
    let offenses := reports.flatMap (·.offenses)
    let shown := (located reports).take (max limit 0).toNat
    shown.map (·.2) = offenses.take (max limit 0).toNat ∧
      (ofReports reports).table limit =
        String.intercalate "\n"
          (shown.flatMap (fun entry => entryTexts entry.1 entry.2) ++
            (if shown = [] then [] else [""]) ++ countTexts reports.length offenses) := by
  intro offenses shown
  have positive : (max limit 0).toNat = limit.toNat := by omega
  have lines : (ofReports reports).offenseLines limit =
      shown.flatMap fun entry => entryTexts entry.1 entry.2 := by
    simp only [offenseLines_ofReports, ← positive, entryLines_eq, shown]
  have empty : (shown.flatMap fun entry => entryTexts entry.1 entry.2).isEmpty = true ↔
      shown = [] := by
    cases shown <;> simp [entryTexts]
  constructor
  · rw [List.map_take, map_snd_located]
  · simp only [table, lines, empty, countLines_ofReports]
    rfl

/-- Two reports with two offenses each; the second has no path. -/
def cutReports : List FormulaReport :=
  [⟨some "a.rb",
    [⟨"Lines/Dependency", .text "late", .convention, 4, 2, "  depends_on", none, false⟩,
      ⟨"Lines/Order", .text "swapped", .error, 2, 0, "class A", none, true⟩], []⟩,
    ⟨none,
      [⟨"Lines/Tail", .text "long", .warning, 1, 11, "url", none, false⟩,
        ⟨"Lines/Gap", .text "wide", .fatal, 7, 0, "end", none, false⟩], []⟩]

/-- The limit falls between the offenses of the second report. -/
theorem table_ofReports_cutReports :
    (ofReports cutReports).table 3 =
      "a.rb:4:3: C: Lines/Dependency: late\n    depends_on\n" ++
      "a.rb:2:1: E: Lines/Order: swapped [Corrected]\n  class A\n" ++
      "<source>:1:12: W: Lines/Tail: long\n  url\n\n" ++
      "Audit Summary\n========================================\n" ++
      "Severity   | Count\n------------------\n" ++
      "fatal      |     1\nerror      |     1\nwarning    |     1\nconvention |     1\n" ++
      "------------------\nStatus    : FAIL\nFiles     : 2\nOffenses  : 4" := by
  rw [(table_ofReports cutReports 3).2]
  decide +kernel

end FormulaLint.RunReport
