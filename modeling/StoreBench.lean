import StoreBench.Load.Script
import StoreBench.Main
import StoreBench.Settings.Document
import StoreBench.Proofs.Document.Serial
import StoreBench.Proofs.Document.Tracking
import StoreBench.Proofs.Document.Answers
import StoreBench.Proofs.Document.Serializable
import StoreBench.Proofs.Document.Failure
import StoreBench.Proofs.Document.Records
import StoreBench.Proofs.Document.Refusal
import StoreBench.Proofs.Document.Turns
import StoreBench.Proofs.Document.Statements
import StoreBench.Proofs.Document.Commit
import StoreBench.Proofs.Document.FirstReads
import StoreBench.Proofs.Document.Keys
import StoreBench.Proofs.Document.Kinds
import StoreBench.Proofs.Document.Selection
import StoreBench.Proofs.Document.Overflow
import StoreBench.Proofs.Document.Paths
import StoreBench.Proofs.Document.Listing
import StoreBench.Proofs.Load.Accounting
import StoreBench.Proofs.Load.Retries
import StoreBench.Proofs.Load.Stopping
import StoreBench.Proofs.Load.Crew
import StoreBench.Proofs.Load.Phases
import StoreBench.Proofs.Load.Rehearsal
import StoreBench.Proofs.Load.Protocol
import StoreBench.Proofs.Load.Yielding
import StoreBench.Proofs.Load.Sharing
import StoreBench.Proofs.Load.Quantiles
import StoreBench.Proofs.Load.Recorders
import StoreBench.Proofs.Load.Saturation
import StoreBench.Proofs.Number.Order
import StoreBench.Proofs.Scenario.Inventory
import StoreBench.Proofs.Scenario.Clients
import StoreBench.Proofs.Scenario.Atomic
import StoreBench.Proofs.Scenario.Orders
import StoreBench.Proofs.Scenario.FanOut
import StoreBench.Proofs.Scenario.Ingestion
import StoreBench.Proofs.Scenario.Joining
import StoreBench.Proofs.Scenario.Residue
import StoreBench.Proofs.Scenario.Storage
import StoreBench.Proofs.Scenario.Graph
import StoreBench.Proofs.Scenario.Popular
import StoreBench.Proofs.Scenario.Audit
import StoreBench.Proofs.Scenario.Window
import StoreBench.Proofs.Settings.Document
import StoreBench.Proofs.Sql.Grouping
import StoreBench.Proofs.Load.Report
import StoreBench.Proofs.Document.Faults
import StoreBench.Proofs.Number.Scan
import StoreBench.Proofs.Settings.Layers
import StoreBench.Proofs.Sql.Removal
import StoreBench.Proofs.Sql.Reset
import StoreBench.Proofs.Document.Stamps
import StoreBench.Proofs.Scenario.Placeholders
