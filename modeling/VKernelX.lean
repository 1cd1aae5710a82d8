import VKernelX.Dag.Conflicts
import VKernelX.Dag.Heads
import VKernelX.Dag.Safety
import VKernelX.Dag.Tables
import VKernelX.Dag.TopologicalOrder
import VKernelX.Dag.WellFormed
import VKernelX.Encoding.Commitments
import VKernelX.Encoding.EventIds
import VKernelX.Encoding.Events
import VKernelX.Encoding.Hex
import VKernelX.Encoding.JsonText
import VKernelX.Encoding.JsonValues
import VKernelX.Encoding.Records
import VKernelX.Encoding.StateRoots
import VKernelX.Encoding.StateText
import VKernelX.Encoding.Writers
import VKernelX.Engine.Acceptance
import VKernelX.Engine.Admission
import VKernelX.Engine.Atomicity
import VKernelX.Engine.AuditTrail
import VKernelX.Engine.BalanceSheet
import VKernelX.Engine.Certification
import VKernelX.Engine.Chains
import VKernelX.Engine.Checks
import VKernelX.Engine.Commutation
import VKernelX.Engine.Conservation
import VKernelX.Engine.Debits
import VKernelX.Engine.DrainFees
import VKernelX.Engine.Frame
import VKernelX.Engine.History
import VKernelX.Engine.Integrity
import VKernelX.Engine.LateRejections
import VKernelX.Engine.Ledger
import VKernelX.Engine.Lifecycle
import VKernelX.Engine.Magnitudes
import VKernelX.Engine.Minting
import VKernelX.Engine.Orderly
import VKernelX.Engine.Outcomes
import VKernelX.Engine.Overflows
import VKernelX.Engine.Panics
import VKernelX.Engine.Parents
import VKernelX.Engine.ProofsOfWork
import VKernelX.Engine.RecordProofs
import VKernelX.Engine.Refusals
import VKernelX.Engine.Schedules
import VKernelX.Engine.SettledOnce
import VKernelX.Engine.Settlement
import VKernelX.Engine.Specs
import VKernelX.Engine.StateInvariants
import VKernelX.Engine.Steps
import VKernelX.Engine.Work
import VKernelX.Engine.Writes
import VKernelX.Ffi.AtMostOnce
import VKernelX.Ffi.Locks
import VKernelX.Ffi.ReplayPaths
import VKernelX.Ffi.Replies
import VKernelX.Ffi.Requests
import VKernelX.Ffi.Returns
import VKernelX.Ffi.Runs
import VKernelX.Ffi.Spending
import VKernelX.Ffi.Submit
import VKernelX.Ffi.Verification
import VKernelX.Foundation.Accounts
import VKernelX.Foundation.CausalOrder
import VKernelX.Foundation.Cuts
import VKernelX.Foundation.Kahn
import VKernelX.Foundation.Lines
import VKernelX.Foundation.Machine
import VKernelX.Foundation.Mutex
import VKernelX.Foundation.Objects
import VKernelX.Foundation.OrderedMap
import VKernelX.Foundation.Outcome
import VKernelX.Foundation.Panics
import VKernelX.Foundation.PrefixCode
import VKernelX.Foundation.Runs
import VKernelX.Foundation.Schedules
import VKernelX.Foundation.Separators
import VKernelX.Foundation.Splits
import VKernelX.Foundation.Text
import VKernelX.Mirror.Kernel
import VKernelX.Mirror.NextStates
import VKernelX.Mirror.Parity
import VKernelX.Mirror.Transfers
import VKernelX.Model.Dag
import VKernelX.Model.Engine
import VKernelX.Model.Event
import VKernelX.Model.Ffi
import VKernelX.Model.Handle
import VKernelX.Model.Interpreter
import VKernelX.Model.Magnitude
import VKernelX.Model.Mining
import VKernelX.Model.Mirror
import VKernelX.Model.Operations
import VKernelX.Model.Platform
import VKernelX.Model.Record
import VKernelX.Model.Region
import VKernelX.Model.RegionAccess
import VKernelX.Model.Replay
import VKernelX.Model.Serialization
import VKernelX.Model.Snapshot
import VKernelX.Model.State
import VKernelX.Model.StateRoot
import VKernelX.Model.Storage
import VKernelX.Region.Access
import VKernelX.Region.Genesis
import VKernelX.Region.Names
import VKernelX.Region.Registry
import VKernelX.Region.RoundTrip
import VKernelX.Region.SignedRequest
import VKernelX.Replay.Applied
import VKernelX.Replay.CausalOrders
import VKernelX.Replay.Causality
import VKernelX.Replay.Continuity
import VKernelX.Replay.Cuts
import VKernelX.Replay.InOrder
import VKernelX.Replay.Incremental
import VKernelX.Replay.Merge
import VKernelX.Replay.OrderIndependence
import VKernelX.Replay.Ordering
import VKernelX.Replay.Panics
import VKernelX.Replay.Progress
import VKernelX.Replay.Recorded
import VKernelX.Replay.Refinement
import VKernelX.Replay.Replicas
import VKernelX.Replay.SnapshotRoots
import VKernelX.Replay.TamperEvidence
import VKernelX.Replay.Unfounded
import VKernelX.Script.Compose
import VKernelX.Script.Numbers
import VKernelX.Storage.EventLog
import VKernelX.Storage.Snapshots
