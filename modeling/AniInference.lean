import AniInference.Lib.Interleaving
import AniInference.Lib.Table
import AniInference.Lib.Transaction
import AniInference.Lib.Triple
import AniInference.Operation
import AniInference.Gpu
import AniInference.Schema
import AniInference.Statements
import AniInference.Store
import AniInference.Commands
import AniInference.Managed
import AniInference.System
import AniInference.Runner
import AniInference.Worker
import AniInference.Effects.Calls
import AniInference.Aggregate
import AniInference.History
import AniInference.Fencing
import AniInference.Paths
import AniInference.Chronicle
import AniInference.Evidence
import AniInference.Discipline
import AniInference.Rules
import AniInference.Loading
import AniInference.Stepping
import AniInference.Workers
import AniInference.Schedule
import AniInference.OperationHistory
import AniInference.ReleaseOrder
import AniInference.LostLease
import AniInference.ReleaseScopes
import AniInference.ReleaseSeal
import AniInference.Acceptance
import AniInference.WorkQueue
import AniInference.Lib.Trace
import AniInference.Traces
import AniInference.Authorship
import AniInference.StepCalls
import AniInference.Turns
import AniInference.Audit
import AniInference.Publications
import AniInference.Retries
import AniInference.QuotaCalls
import AniInference.Reservations
import AniInference.QuotaSteps
import AniInference.QuotaAccounts
import AniInference.QuotaReleases
import AniInference.AccessKeys
import AniInference.AccessService
import AniInference.AccessEffects
import AniInference.AccessHistory
import AniInference.AccessOutline
import AniInference.AccessWrites
import AniInference.AccessGrants
import AniInference.RateLimits
import AniInference.AccessChecks
import AniInference.KeyRotation
import AniInference.KeyCreation
import AniInference.KeySecrets
import AniInference.Readiness
import AniInference.AppliedGeneration
import AniInference.RuntimeSelection
import AniInference.Lib.RowStatements
import AniInference.Transactions
import AniInference.AcceptanceReplay
import AniInference.SpellingLocks
import AniInference.Delivery
import AniInference.Receipts
import AniInference.StatusProjection
import AniInference.Diagnostics
import AniInference.DiagnosticsIsolation
import AniInference.MaskedFrame
import AniInference.AccessAnswers
import AniInference.Lib.Json
import AniInference.PublicationStatus
import AniInference.ReleaseEvidence
import AniInference.DistributedReadiness
import AniInference.ListPages
import AniInference.Topology
import AniInference.Demands
import AniInference.Idempotency
import AniInference.Lifecycle
