import FormulaLint.Report

/-! The report for people: the first offenses, a line of source under each, and a table of counts.
-/

namespace FormulaLint

def padRight (width : Nat) (text : String) : String :=
  text ++ String.ofList (List.replicate (width - text.length) ' ')

def padLeft (width : Nat) (text : String) : String :=
  String.ofList (List.replicate (width - text.length) ' ') ++ text

namespace RunReport

/-- An offense in one line, after the path of its file. Columns are shown counted from one. -/
def offenseLine (path : Option String) (offense : Offense) : String :=
  let place := shownPath path ++ ":" ++ toString offense.line ++ ":" ++
    toString (offense.column + 1)
  let marker := if offense.corrected then " [Corrected]" else ""
  place ++ ": " ++ offense.severity.letter ++ ": " ++ offense.rule ++ ": " ++
    offense.message.display ++ marker

def entryLines (path : Option String) (offense : Offense) : List String :=
  [offenseLine path offense, "  " ++ offense.sourceLine]

/-- The offenses that are shown so far: how many they are, and the lines about them. -/
structure Excerpt where
  shown : Nat := 0
  lines : List String := []

def Excerpt.addOffenses (limit : Int) (path : Option String) (excerpt : Excerpt) :
    List Offense → Excerpt
  | [] => excerpt
  | offense :: rest =>
      if limit ≤ excerpt.shown then excerpt
      else
        addOffenses limit path
          ⟨excerpt.shown + 1, excerpt.lines ++ entryLines path offense⟩ rest

def offenseLines (result : RunReport) (limit : Int) : List String :=
  let excerpt : Excerpt := result.files.foldl
    (fun excerpt report => excerpt.addOffenses limit report.path report.offenses) {}
  excerpt.lines

def tableRow (severity count : String) : String :=
  padRight 10 severity ++ " | " ++ padLeft 5 count

def countLines (result : RunReport) : List String :=
  let header := tableRow "Severity" "Count"
  let rule := String.ofList (List.replicate header.length '-')
  ["Audit Summary", String.ofList (List.replicate 40 '='), header, rule] ++
    result.summary.rows.map (fun row => tableRow row.1.name (toString row.2)) ++
    [rule,
      "Status    : " ++ (if result.passed then "PASS" else "FAIL"),
      "Files     : " ++ toString result.files.length,
      "Offenses  : " ++ toString result.summary.total]

/-- The whole report. An empty line separates the offenses from the table. -/
def table (result : RunReport) (limit : Int) : String :=
  let shown := result.offenseLines limit
  let gap := if shown.isEmpty then [] else [""]
  String.intercalate "\n" (shown ++ gap ++ result.countLines)

end RunReport

def shownOffenses : Int := 50

end FormulaLint
