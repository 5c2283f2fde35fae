import ExportDiff.Main
import ExportDiff.Proofs.FileTree.Snapshot
import ExportDiff.Proofs.Json.Compact
import ExportDiff.Proofs.Multiset.Coarsening
import ExportDiff.Proofs.Multiset.Reordering
import ExportDiff.Proofs.Multiset.Unmatched
import ExportDiff.Proofs.Record.Equality
import ExportDiff.Proofs.Record.History
import ExportDiff.Proofs.Record.RoundTrip
import ExportDiff.Proofs.Record.Successive
import ExportDiff.Proofs.Report.Items
import ExportDiff.Proofs.Report.Verdicts
import ExportDiff.Proofs.Similarity.Subsequence
import ExportDiff.Proofs.Similarity.Swapped
import ExportDiff.Proofs.Tree.Events
import ExportDiff.Proofs.Tree.Exports
import ExportDiff.Proofs.Tree.Listing
import ExportDiff.Proofs.Tree.Mirror
import ExportDiff.Record.Step
