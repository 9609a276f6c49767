import Relayvia.Graph
import Relayvia.StateMachine
import Relayvia.ContextReference
import Relayvia.Library.Table
import Relayvia.Models
import Relayvia.Scheduler
import Relayvia.ExecutionBackend
import Relayvia.Runs
import Relayvia.Runners
import Relayvia.Library.Outcome
import Relayvia.System
import Relayvia.Evolution
import Relayvia.Operations.Basic
import Relayvia.Operations.Backend
import Relayvia.Operations.Runners
import Relayvia.Operations.Scheduler
import Relayvia.Operations.Reconciliation
import Relayvia.Operations.Runs
import Relayvia.Operations.System
import Relayvia.Coupling
import Relayvia.FailFast
import Relayvia.Fencing
import Relayvia.Validation.Result
import Relayvia.Validation.Topology
import Relayvia.Validation.Context
import Relayvia.Validation.Nodes
import Relayvia.Validation.Validator
import Relayvia.Validation.Shape
import Relayvia.Branching
import Relayvia.Waiting
import Relayvia.Progress
import Relayvia.Idempotence
import Relayvia.Library.EventLog
import Relayvia.Trace.Records
import Relayvia.Trace.Reconciliation
import Relayvia.Trace.Completeness
import Relayvia.References
import Relayvia.Validation.Upstream
import Relayvia.EventStream
import Relayvia.Workspaces.Service
import Relayvia.Workspaces.Rows
import Relayvia.Workspaces.Scheduling
import Relayvia.Workspaces.Processes
import Relayvia.Workspaces.Release
import Relayvia.Workspaces.Cleanup
import Relayvia.Artifacts.Service
import Relayvia.Artifacts.Upload
import Relayvia.Artifacts.Ready
import Relayvia.Artifacts.Registration
import Relayvia.Worker.Process
import Relayvia.Worker.Inputs
import Relayvia.Worker.LostLease
import Relayvia.Concurrency.Transactions
import Relayvia.Concurrency.Sessions
import Relayvia.Concurrency.Writes
import Relayvia.Concurrency.RunLock
import Relayvia.Concurrency.Snapshots
import Relayvia.Operations.Cells
import Relayvia.Bookkeeping.RunRow
import Relayvia.Bookkeeping.Runs
import Relayvia.Gating
import Relayvia.Bookkeeping.Nodes
import Relayvia.Worker.Retries
import Relayvia.Bookkeeping.Paths
import Relayvia.Expiry
import Relayvia.Output.Sanitize
import Relayvia.Validation.Registry
import Relayvia.Output.Command
import Relayvia.Enrollment.Service
import Relayvia.Enrollment.Sessions
import Relayvia.Concurrency.LockOrder
import Relayvia.Concurrency.Requests
import Relayvia.Concurrency.Deadlock
import Relayvia.Validation.Executable
import Relayvia.Validation.Variables
import Relayvia.Validation.Totality
import Relayvia.Placement.Dispatch
import Relayvia.Placement.Pinned
import Relayvia.Catalog.Resources
import Relayvia.Catalog.Workflows
import Relayvia.Catalog.Integrity
import Relayvia.Builder.Page
import Relayvia.Builder.Honest
import Relayvia.Artifacts.AllOrNothing
import Relayvia.Library.Replace
import Relayvia.Templates.Grammar
import Relayvia.Templates.Parser
import Relayvia.Templates.Interpolation
import Relayvia.Library.Places
import Relayvia.Output.Redaction
import Relayvia.Concurrency.CellWrites
import Relayvia.Concurrency.Cancellation
import Relayvia.Validation.GraphIndex
import Relayvia.Conditions.Comparison
import Relayvia.Library.Clauses
import Relayvia.Skipping
import Relayvia.Conditions.Evaluation
import Relayvia.Conditions.Validated
import Relayvia.Validation.ReferenceTypes
import Relayvia.Library.Split
import Relayvia.Library.Chunks
import Relayvia.Stream.TextDecoder
import Relayvia.Stream.Reader
import Relayvia.Stream.Frames
import Relayvia.Stream.Chunking
import Relayvia.Concurrency.HumanActions
import Relayvia.Catalog.Versions
import Relayvia.Executor.Default
import Relayvia.Executor.Deployment
import Relayvia.Executor.Determinacy
