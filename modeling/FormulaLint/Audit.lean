import FormulaLint.Catalogue
import FormulaLint.Configuration
import FormulaLint.Notice

/-! The audit of one formula: the nodes of the tree are visited in the order of the walk, and each
is shown to the rules of its kind that are neither exempt nor have failed. -/

namespace FormulaLint

/-- The outcome for one formula. -/
structure FormulaReport where
  path : Option String
  offenses : List Offense
  failedRules : List String
  deriving Repr

def Formula.notices (formula : Formula) : List Notice :=
  if formula.hasError then [.syntaxErrors] else []

/-! ## What the visits bring -/

/-- What an audit has so far: drafts under the ids of the rules that made them, the ids of the rules
that have failed, and what there was to say about that. -/
structure AuditProgress where
  drafts : Dictionary (List Draft) := []
  failed : List String := []
  notices : List Notice := []

namespace AuditProgress

def draftsOf (progress : AuditProgress) (id : String) : List Draft :=
  (progress.drafts.get? id).getD []

def record (progress : AuditProgress) (id : String) (found : List Draft) : AuditProgress :=
  if found.isEmpty then progress
  else { progress with drafts := progress.drafts.put id (progress.draftsOf id ++ found) }

/-- A rule that fails loses the drafts that it has made before. -/
def fail (progress : AuditProgress) (id : String) (notice : Notice) : AuditProgress where
  drafts := progress.drafts.remove id
  failed := progress.failed ++ [id]
  notices := progress.notices ++ [notice]

def inspect (context : Surroundings) (active : List String) (site : Site)
    (progress : AuditProgress) (rule : Rule) : AuditProgress :=
  if !active.contains rule.id || progress.failed.contains rule.id then progress
  else
    match rule.detect context site with
    | some found => progress.record rule.id found
    | none =>
        progress.fail rule.id (.failedRule rule.id context.provenance.path site.node.line)

end AuditProgress

/-! ## The audit -/

structure Audit where
  catalogue : Catalogue
  configuration : Configuration

namespace Audit

def notices (audit : Audit) : List Notice :=
  audit.configuration.policy.unknownEntries audit.catalogue.ids

def activeIds (audit : Audit) (provenance : Provenance) : List String :=
  audit.catalogue.ids.filter fun id => !audit.configuration.policy.exempts id provenance

def visit (catalogue : Catalogue) (context : Surroundings) (active : List String)
    (progress : AuditProgress) (site : Site) : AuditProgress :=
  (catalogue.rulesOfKind site.node.kind).foldl (AuditProgress.inspect context active site) progress

def visitAll (catalogue : Catalogue) (context : Surroundings) (active : List String)
    (sites : List Site) : AuditProgress :=
  sites.foldl (visit catalogue context active) {}

def offense (formula : Formula) (rule : Rule) (draft : Draft) : Offense where
  rule := rule.id
  message := draft.message
  severity := rule.severity
  line := draft.line
  column := draft.column
  sourceLine := formula.shownLine draft.line
  fix := draft.fix

/-- A draft with the rule that made it and the rule's position in the catalogue. -/
structure Finding where
  rule : Rule
  position : Nat
  draft : Draft

namespace Finding

def notAfter (left right : Finding) : Bool :=
  if left.draft.line ≠ right.draft.line then left.draft.line < right.draft.line
  else if left.draft.column ≠ right.draft.column then left.draft.column < right.draft.column
  else left.position ≤ right.position

/-- The order in which a family lists its findings. -/
def precedes (order : ReportOrder) (left right : Finding) : Bool :=
  match order with
  | .ascending => left.notAfter right
  | .descending => right.notAfter left

end Finding

def findings (catalogue : Catalogue) (progress : AuditProgress) (family : String) : List Finding :=
  (catalogue.rules.filter fun rule => rule.family = family).flatMap fun rule =>
    (progress.draftsOf rule.id).map fun draft =>
      ⟨rule, (catalogue.position? rule.id).getD 0, draft⟩

def arrange (catalogue : Catalogue) (progress : AuditProgress) : List Finding :=
  catalogue.families.flatMap fun family =>
    let order := (catalogue.order? family).getD .ascending
    stableSort (Finding.precedes order) (findings catalogue progress family)

/-- Audit a tree for a file of the given provenance. -/
def run (audit : Audit) (formula : Formula) (provenance : Provenance) :
    FormulaReport × List Notice :=
  let context : Surroundings := ⟨formula, provenance, audit.configuration.tables⟩
  let progress := visitAll audit.catalogue context (audit.activeIds provenance) formula.walk
  let report : FormulaReport := {
    path := provenance.path
    offenses := (arrange audit.catalogue progress).map fun finding =>
      offense formula finding.rule finding.draft
    failedRules := audit.catalogue.ids.filter fun id => progress.failed.contains id }
  (report, progress.notices)

def examine (audit : Audit) (formula : Formula) (path : Option String) :
    FormulaReport × List Notice :=
  audit.run formula (formula.provenance path)

end Audit

end FormulaLint
