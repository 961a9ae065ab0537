import AssignOnce.Text.Lines
import AssignOnce.Text.Identifier
import AssignOnce.Text.Quoted
import AssignOnce.Text.Numeral
import AssignOnce.Tree.Basic
import AssignOnce.Program.Package
import AssignOnce.Directive.NoLint
import AssignOnce.Analysis.Audit
import AssignOnce.Analysis.Classifier
import AssignOnce.Fix.NewVariable
import AssignOnce.Fix.Permit
import AssignOnce.Config.CommandLine
import AssignOnce.Check
import AssignOnce.Editor.Server
import AssignOnce.Main
import AssignOnce.Config.Settings
import AssignOnce.Proofs.Analysis.Writes
import AssignOnce.Proofs.Check.Reassignments
import AssignOnce.Proofs.Scope.Lookup
import AssignOnce.Proofs.Tree.Layout
import AssignOnce.Proofs.Fix.Capture
import AssignOnce.Proofs.Analysis.Removal
import AssignOnce.Proofs.Fix.Extent
import AssignOnce.Proofs.Check.Conflicts
import AssignOnce.Proofs.Fix.Placement
import AssignOnce.Proofs.Text.Utf8
import AssignOnce.Proofs.Text.Utf16
import AssignOnce.Proofs.Editor.Encoding
import AssignOnce.Proofs.Editor.Run
import AssignOnce.Proofs.Editor.Synchronization
import AssignOnce.Proofs.Editor.Actions
import AssignOnce.Proofs.Directive.RoundTrip
import AssignOnce.Proofs.Tree.Kept
import AssignOnce.Proofs.Fix.Permit
import AssignOnce.Proofs.Editor.Interleaving
import AssignOnce.Proofs.Check.Narrowing
import AssignOnce.Proofs.Check.Permitting
import AssignOnce.Proofs.Fix.Numbering
import AssignOnce.Proofs.Fix.FreshName
import AssignOnce.Proofs.Fix.InferredType
import AssignOnce.Proofs.Fix.Redeclaration
import AssignOnce.Proofs.Expression.Grammar
import AssignOnce.Proofs.Fix.Grouping
import AssignOnce.Proofs.Directive.Entries
import AssignOnce.Proofs.Fix.PermittedNames
import AssignOnce.Proofs.Analysis.Collection
import AssignOnce.Proofs.Analysis.Classifier
import AssignOnce.Proofs.Tree.Search
import AssignOnce.Proofs.Analysis.Presumption
import AssignOnce.Proofs.Analysis.SameCode
import AssignOnce.Proofs.Analysis.Verdict
import AssignOnce.Proofs.Analysis.Findings
import AssignOnce.Proofs.Fix.TypeSpelling
import AssignOnce.Proofs.Fix.Qualifiers
import AssignOnce.Proofs.Text.Reading
import AssignOnce.Proofs.Editor.Boundaries
import AssignOnce.Proofs.Fix.Application
import AssignOnce.Proofs.Fix.Session
import AssignOnce.Proofs.Config.Options
import AssignOnce.Proofs.Program.Comments
import AssignOnce.Proofs.Editor.LineTable
