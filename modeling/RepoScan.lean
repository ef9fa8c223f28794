import RepoScan.Main
import RepoScan.Proofs.Clone.Destination
import RepoScan.Proofs.Diff.Insertion
import RepoScan.Proofs.History
import RepoScan.Proofs.Reporting
import RepoScan.Proofs.Scan.Hosted
import RepoScan.Proofs.Redaction
import RepoScan.Proofs.Clone.Redaction
import RepoScan.Proofs.Suppression.Expiry
import RepoScan.Proofs.ToolReport.Secrets
import RepoScan.Proofs.Detection.Locality
import RepoScan.Proofs.Detection.Selection
import RepoScan.Proofs.Triage.Algebra
import RepoScan.Proofs.ToolReport.Dependencies
import RepoScan.Proofs.Tree.Plan
import RepoScan.Proofs.Repository.Spelling
import RepoScan.Proofs.Json.RoundTrip
import RepoScan.Proofs.Finding
import RepoScan.Proofs.Files
import RepoScan.Proofs.Report
import RepoScan.Proofs.Report.Writing
import RepoScan.Proofs.CommandLine
import RepoScan.Proofs.FileKind
import RepoScan.Proofs.Diff.Remark
import RepoScan.Proofs.Rule.Credential
import RepoScan.Proofs.Suppression.Composition
import RepoScan.Proofs.ToolReport.Shapes
import RepoScan.Proofs.Diff.Origin
import RepoScan.Proofs.Diff.Plain
import RepoScan.Proofs.Summary
import RepoScan.Proofs.FileKind.Views
import RepoScan.Proofs.Tree.Skipping
import RepoScan.Proofs.Detection.LineEnding
import RepoScan.Proofs.Detection.Placement
import RepoScan.Proofs.Hosting.Cache
import RepoScan.Proofs.Hosting.Delivery
import RepoScan.Proofs.ToolReport.Location
import RepoScan.Proofs.Config.Manifest
import RepoScan.Proofs.Repository.Rejection
import RepoScan.Proofs.Report.Completion
import RepoScan.Proofs.Scan.Processes
import RepoScan.Proofs.Redaction.Width
