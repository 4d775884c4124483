import FormulaLint.Report

/-! The report for programs. -/

namespace FormulaLint

def Phrase.toJson (phrase : Phrase) : Json :=
  Json.ofValue phrase.toValue

def Fix.toJson (fix : Fix) : Json :=
  .object [
    ("start", .whole fix.start),
    ("end", .whole fix.stop),
    ("replacement", fix.replacement.toJson)]

def Offense.toJson (offense : Offense) : Json :=
  .object [
    ("rule", .text offense.rule),
    ("message", offense.message.toJson),
    ("severity", .text offense.severity.name),
    ("line", .whole offense.line),
    ("column", .whole offense.column),
    ("source_line", .text offense.sourceLine),
    ("fix", (offense.fix.map Fix.toJson).getD .null),
    ("corrected", .flag offense.corrected)]

def FormulaReport.toJson (report : FormulaReport) : Json :=
  .object [
    ("path", (report.path.map Json.text).getD .null),
    ("offenses", .array (report.offenses.map Offense.toJson)),
    ("failed_rules", .array (report.failedRules.map Json.text))]

def Tally.toJson (tally : Tally) : Json :=
  .object (tally.rows.map fun row => (row.1.name, .whole row.2))

def RunReport.toJson (result : RunReport) : Json :=
  .object [
    ("summary", result.summary.toJson),
    ("files", .array (result.files.map FormulaReport.toJson)),
    ("passed", .flag result.passed)]

end FormulaLint
