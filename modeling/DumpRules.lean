import DumpRules.Bindings
import DumpRules.Catalog.Basic
import DumpRules.Catalog.Node
import DumpRules.Catalog.Pattern
import DumpRules.Catalog.Registry
import DumpRules.Clause.Basic
import DumpRules.Clause.Error
import DumpRules.Clause.Reader
import DumpRules.Command.Args
import DumpRules.Command.Log
import DumpRules.Command.Run
import DumpRules.Command.Store
import DumpRules.Consistency
import DumpRules.Constraint
import DumpRules.CountSet
import DumpRules.Dumps
import DumpRules.Grammar.Attempt
import DumpRules.Grammar.Lists
import DumpRules.Grammar.Scanner
import DumpRules.Json.Basic
import DumpRules.Json.Printer
import DumpRules.Json.Reader
import DumpRules.Json.Record
import DumpRules.Main
import DumpRules.Phase
import DumpRules.PhaseCheck
import DumpRules.Plan
import DumpRules.Regex.Bracket
import DumpRules.Regex.CharSet
import DumpRules.Regex.Escape
import DumpRules.Regex.Expr
import DumpRules.Regex.Reader
import DumpRules.Regex.Search
import DumpRules.Relation
import DumpRules.Rule.Basic
import DumpRules.Rule.Check
import DumpRules.Rule.Declaration
import DumpRules.Rule.Error
import DumpRules.Rule.Lint
import DumpRules.Rule.Mode
import DumpRules.Suite.Manifest
import DumpRules.Suite.Path
import DumpRules.Suite.Report
import DumpRules.Text.Alphabetic
import DumpRules.Text.Blank
import DumpRules.Text.CodePoints
import DumpRules.Text.Decimal
import DumpRules.Text.Folding
import DumpRules.Text.Mark
import DumpRules.Text.Number
import DumpRules.Text.Numbered
import DumpRules.Text.WordChar
import DumpRules.Trace
import DumpRules.Verdict
import DumpRules.Proofs.Grammar.Completeness
import DumpRules.Proofs.Grammar.Derivation
import DumpRules.Proofs.Grammar.Entries
import DumpRules.Proofs.Grammar.Places
import DumpRules.Proofs.Grammar.Scanners
import DumpRules.Proofs.Grammar.Soundness
import DumpRules.Proofs.Grammar.Tokens
import DumpRules.Proofs.Acceptance
import DumpRules.Proofs.Concatenation
import DumpRules.Proofs.CountSets
import DumpRules.Proofs.Coverage
import DumpRules.Proofs.DryRun
import DumpRules.Proofs.Evaluation
import DumpRules.Proofs.EventOrder
import DumpRules.Proofs.Independence
import DumpRules.Proofs.Noninterference
import DumpRules.Proofs.Placement
import DumpRules.Proofs.Reports
import DumpRules.Proofs.RoundTrip
import DumpRules.Proofs.Satisfiability
import DumpRules.Proofs.Targets
import DumpRules.Proofs.Prefixing
import DumpRules.Proofs.Documents
import DumpRules.Proofs.Files
import DumpRules.Proofs.SuiteTexts
import DumpRules.Proofs.CheckCommand
import DumpRules.Proofs.Declarations
import DumpRules.Proofs.DefaultPhases
import DumpRules.Proofs.Regex.Straight
import DumpRules.Proofs.Regex.Quoting
import DumpRules.Proofs.WholeWords
import DumpRules.Proofs.RepeatedDumps
import DumpRules.Proofs.Conflicts
import DumpRules.Proofs.Grammar.Cutting
import DumpRules.Proofs.Spans
import DumpRules.Proofs.Trials
import DumpRules.Proofs.PrintedSets
import DumpRules.Proofs.ManifestIssues
import DumpRules.Proofs.ManifestDocuments
import DumpRules.Proofs.FailureRecords
import DumpRules.Proofs.Grammar.Attempts
import DumpRules.Proofs.Trimming
import DumpRules.Proofs.BoundNames
import DumpRules.Proofs.FlagOverrides
import DumpRules.Proofs.OwnNames
import DumpRules.Proofs.CharBoundaries
import DumpRules.Proofs.SaturatedCounts
