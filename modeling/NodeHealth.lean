import NodeHealth.Machine.Scratch
import NodeHealth.Main
import NodeHealth.Proofs.CommandLine.Given
import NodeHealth.Proofs.Config.Overlay
import NodeHealth.Proofs.Config.RoundTrip
import NodeHealth.Proofs.Duration
import NodeHealth.Proofs.Hosts
import NodeHealth.Proofs.Json.Quoted
import NodeHealth.Proofs.Json.Value
import NodeHealth.Proofs.Mount.Field
import NodeHealth.Proofs.Mount.Table
import NodeHealth.Proofs.Mount.Verdict
import NodeHealth.Proofs.Pod.Acceptance
import NodeHealth.Proofs.Pod.Counting
import NodeHealth.Proofs.Pod.DecisionTable
import NodeHealth.Proofs.Pod.Detection
import NodeHealth.Proofs.Pod.Identities
import NodeHealth.Proofs.Pod.Layout
import NodeHealth.Proofs.Pod.Locality
import NodeHealth.Proofs.Pod.Message
import NodeHealth.Proofs.Pod.Narrowing
import NodeHealth.Proofs.Pod.Overflow
import NodeHealth.Proofs.Pod.Reading
import NodeHealth.Proofs.Pod.RoundTrip
import NodeHealth.Proofs.Pod.RowOrder
import NodeHealth.Proofs.Pod.Selection
import NodeHealth.Proofs.Pod.Severity
import NodeHealth.Proofs.Pod.Truncation
import NodeHealth.Proofs.Pod.WideTable
import NodeHealth.Proofs.Program
import NodeHealth.Proofs.Run.Calm
import NodeHealth.Proofs.Run.Check
import NodeHealth.Proofs.Run.Discovery
import NodeHealth.Proofs.Run.Listing
import NodeHealth.Proofs.Run.Pipeline
import NodeHealth.Proofs.Run.Replay
import NodeHealth.Proofs.Text.Lines
import NodeHealth.Proofs.Text.OneLine
import NodeHealth.Proofs.Text.Spacing
import NodeHealth.Proofs.Text.Tidy
import NodeHealth.Proofs.Toml.Document
import NodeHealth.Proofs.Toml.Quoted
import NodeHealth.Proofs.Toml.Value
import NodeHealth.Proofs.Verdict.ReadBack
import NodeHealth.Proofs.Verdict.Report
import NodeHealth.Proofs.Verdict.Tidy
