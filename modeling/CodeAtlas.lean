import CodeAtlas.Json.Printer
import CodeAtlas.Json.Reader
import CodeAtlas.Pattern.Basic
import CodeAtlas.Text.Block
import CodeAtlas.Text.Indent
import CodeAtlas.Text.Split
import CodeAtlas.Text.LineIndex
import CodeAtlas.Glob
import CodeAtlas.Files.Tree
import CodeAtlas.Facts.Analysis
import CodeAtlas.Language.Detect
import CodeAtlas.Analyzer
import CodeAtlas.Scan
import CodeAtlas.Time.Instant
import CodeAtlas.Digest.Sha256
import CodeAtlas.Graph.Codec
import CodeAtlas.Graph.Fingerprint
import CodeAtlas.Graph.Lift
import CodeAtlas.Store.Basic
import CodeAtlas.Toml.Reader
import CodeAtlas.Manifest.Basic
import CodeAtlas.Reply.EventStream
import CodeAtlas.Assist.Survey
import CodeAtlas.Survey
import CodeAtlas.Config.Reader
import CodeAtlas.CommandLine.Run
import CodeAtlas.Main
import CodeAtlas.Proofs.Text.Splitting
import CodeAtlas.Proofs.Terraform.Body
import CodeAtlas.Proofs.Graph.Merge
import CodeAtlas.Proofs.Graph.Coherence
import CodeAtlas.Proofs.Graph.Reachable
import CodeAtlas.Proofs.Graph.History
import CodeAtlas.Proofs.Graph.Ordering
import CodeAtlas.Proofs.Reply.Chunks
import CodeAtlas.Proofs.Reply.Whole
import CodeAtlas.Proofs.Store.Regeneration
import CodeAtlas.Proofs.Store.Checkpoints
import CodeAtlas.Proofs.Facts.Merging
import CodeAtlas.Proofs.Store.Stopping
import CodeAtlas.Proofs.Survey.Coverage
import CodeAtlas.Proofs.Graph.Rooted
import CodeAtlas.Proofs.Graph.Slugs
import CodeAtlas.Proofs.Facts.Reading
import CodeAtlas.Proofs.Graph.Induced
import CodeAtlas.Proofs.Graph.Querying
import CodeAtlas.Proofs.Graph.Paths
import CodeAtlas.Proofs.Assist.Batches
import CodeAtlas.Proofs.Graph.Counting
import CodeAtlas.Proofs.Graph.Schemas
import CodeAtlas.Proofs.Facts.Scanning
import CodeAtlas.Proofs.Language.Detecting
import CodeAtlas.Proofs.Facts.Isolation
import CodeAtlas.Proofs.Manifest.GoMod
import CodeAtlas.Proofs.Manifest.Package
import CodeAtlas.Proofs.Manifest.Requirements
import CodeAtlas.Proofs.Reply.Recovered
import CodeAtlas.Proofs.Graph.Endpoints
import CodeAtlas.Proofs.Graph.Integrations
import CodeAtlas.Proofs.Graph.Inheritance
import CodeAtlas.Proofs.Graph.Summary
import CodeAtlas.Proofs.Terraform.Diagrams
import CodeAtlas.Proofs.Terraform.Documents
import CodeAtlas.Proofs.Infra.Drawing
import CodeAtlas.Proofs.Text.Comments
import CodeAtlas.Proofs.Text.LineDepths
import CodeAtlas.Proofs.Text.Lines
import CodeAtlas.Proofs.Php.Rules
import CodeAtlas.Proofs.Rust.Headers
