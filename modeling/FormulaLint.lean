import FormulaLint.Audit
import FormulaLint.Catalogue
import FormulaLint.Character.Blank
import FormulaLint.Character.Digit
import FormulaLint.Character.Lowercase
import FormulaLint.Character.Printable
import FormulaLint.Character.Span
import FormulaLint.Character.Word
import FormulaLint.CommandLine.Options
import FormulaLint.CommandLine.Session
import FormulaLint.Configuration
import FormulaLint.Configuration.Fault
import FormulaLint.Configuration.Layers
import FormulaLint.Configuration.Packaged
import FormulaLint.Correction
import FormulaLint.Dictionary
import FormulaLint.Disk
import FormulaLint.Disk.Discovery
import FormulaLint.Disk.FileTree
import FormulaLint.Disk.Path
import FormulaLint.Failure
import FormulaLint.Formula
import FormulaLint.Glob
import FormulaLint.Json
import FormulaLint.Json.Reading
import FormulaLint.Languages
import FormulaLint.Main
import FormulaLint.Notice
import FormulaLint.Offense
import FormulaLint.Pattern
import FormulaLint.Pattern.Escape
import FormulaLint.Pattern.Expression
import FormulaLint.Pattern.Fault
import FormulaLint.Pattern.Matching
import FormulaLint.Pattern.Reading
import FormulaLint.Pattern.Token
import FormulaLint.Phrase
import FormulaLint.Policy
import FormulaLint.Provenance
import FormulaLint.Report
import FormulaLint.Report.Document
import FormulaLint.Report.Table
import FormulaLint.Rounds
import FormulaLint.Rule
import FormulaLint.Rules.Assertion
import FormulaLint.Rules.BuildQuery
import FormulaLint.Rules.BuiltIn
import FormulaLint.Rules.Command
import FormulaLint.Rules.Comment
import FormulaLint.Rules.Declaration
import FormulaLint.Rules.Dependency
import FormulaLint.Rules.Deprecated
import FormulaLint.Rules.FilePath
import FormulaLint.Rules.Flag
import FormulaLint.StableSort
import FormulaLint.Tables
import FormulaLint.Text.Blank
import FormulaLint.Text.Encoding
import FormulaLint.Text.Escape
import FormulaLint.Text.Lines
import FormulaLint.Text.Quoted
import FormulaLint.Text.Search
import FormulaLint.Text.Slice
import FormulaLint.Tree.Call
import FormulaLint.Tree.Concrete
import FormulaLint.Tree.Kind
import FormulaLint.Tree.Literal
import FormulaLint.Tree.Negation
import FormulaLint.Tree.Node
import FormulaLint.Tree.Position
import FormulaLint.Tree.Recorded
import FormulaLint.Tree.Statement
import FormulaLint.Tree.Walk
import FormulaLint.Value
import FormulaLint.Visit
import FormulaLint.Proofs.RuleIndex
import FormulaLint.Proofs.TreeWalk
import FormulaLint.Proofs.AuditProgress
import FormulaLint.Proofs.RuleByRule
import FormulaLint.Proofs.ChosenRules
import FormulaLint.Proofs.RuleIsolation
import FormulaLint.Proofs.RestrictedAudit
import FormulaLint.Proofs.GreedySelection
import FormulaLint.Proofs.SettledOffenses
import FormulaLint.Proofs.Lines
import FormulaLint.Proofs.SimultaneousSplice
import FormulaLint.Proofs.SourceLine
import FormulaLint.Proofs.LaidOut
import FormulaLint.Proofs.TreeImage
import FormulaLint.Proofs.BuiltInFixes
import FormulaLint.Proofs.PhraseTables
import FormulaLint.Proofs.TableRoundTrip
import FormulaLint.Proofs.LayeredTwice
import FormulaLint.Proofs.WrittenReports
import FormulaLint.Proofs.CorrectedFiles
import FormulaLint.Proofs.AuditedRoots
import FormulaLint.Proofs.RuleDrafts
import FormulaLint.Proofs.RewordedConditions
import FormulaLint.Proofs.RespelledAssertions
import FormulaLint.Proofs.TaggedDependencies
import FormulaLint.Proofs.DeletedStatements
import FormulaLint.Proofs.OptionQueries
import FormulaLint.Proofs.FlagMarkers
import FormulaLint.Proofs.StrippedOptions
import FormulaLint.Proofs.QuotedContent
import FormulaLint.Proofs.RequotedOptions
import FormulaLint.Proofs.ReportOrder
import FormulaLint.Proofs.ListedCompilers
import FormulaLint.Proofs.LiteralColumns
import FormulaLint.Proofs.RecordedGroups
import FormulaLint.Proofs.QuotedShortcuts
import FormulaLint.Proofs.CharacterOffsets
import FormulaLint.Proofs.DeletedLines
import FormulaLint.Proofs.ExtendedTables
import FormulaLint.Proofs.PlainExpressions
import FormulaLint.Proofs.SettledShortcuts
import FormulaLint.Proofs.MergedPolicies
import FormulaLint.Proofs.RefusedDocuments
import FormulaLint.Proofs.DeclaredRules
import FormulaLint.Proofs.ComplementedQueries
import FormulaLint.Proofs.RepeatedCorrections
import FormulaLint.Proofs.CountedOffenses
import FormulaLint.Proofs.RelistedFolders
import FormulaLint.Proofs.DiscoveredFiles
import FormulaLint.Proofs.ShownOffenses
import FormulaLint.Proofs.PreorderWalk
import FormulaLint.Proofs.LiteralContent
import FormulaLint.Proofs.ArgumentQueries
