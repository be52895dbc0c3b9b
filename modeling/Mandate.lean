import Mandate.Api.DecisionPages
import Mandate.Screen.TypeSafe
import Mandate.Transport.Restarts
import Mandate.Postgres.Callers
import Mandate.Postgres.Chains
import Mandate.Postgres.Agreement
import Mandate.Ledger.NoFalseAlarms
import Mandate.Ledger.BundleTrips
import Mandate.Pilot.ContentAudit
import Mandate.Pilot.AutonomyAudit
import Mandate.Api.Amounts
import Mandate.Lib.PyDecimal
import Mandate.Domain.Timestamps
import Mandate.Lib.Rfc3339
import Mandate.Crypto.Canonicalization
import Mandate.Transport.Redaction
import Mandate.Domain.Identifiers
import Mandate.Domain.DelegationChains
import Mandate.Transport.SignedTrips
import Mandate.Ledger.EventTrips
import Mandate.Domain.Stability
import Mandate.Domain.Reading
import Mandate.Lib.JsonTrips
import Mandate.Ledger.DealSection
import Mandate.Ledger.Writing
import Mandate.Application.HeldGrants
import Mandate.Application.AllowedEffect
import Mandate.Ledger.AtomicCommits
import Mandate.Transport.SignatureText
import Mandate.Postgres.Serializability
import Mandate.Postgres.WriteOnce
import Mandate.Transport.AtMostOnce
import Mandate.Transport.Receipts
import Mandate.Ledger.Anchoring
import Mandate.Postgres.Transactions
import Mandate.Ledger.Numbering
import Mandate.Postgres.Store
import Mandate.Postgres.Tables
import Mandate.Lib.Serializable
import Mandate.Application.Revocations
import Mandate.Application.ApprovalLedger
import Mandate.Application.Limits
import Mandate.Application.Payments
import Mandate.Ledger.DealSteps
import Mandate.Policy.Narrowing
import Mandate.Lib.ReadCommitted
import Mandate.Transport.GuardedTransitions
import Mandate.Application.NoAutonomousCommit
import Mandate.Application.StaleSnapshot
import Mandate.Application.Services
import Mandate.Application.Grants
import Mandate.Application.Delegation
import Mandate.Ledger.Runs
import Mandate.Ledger.Replay
import Mandate.Lib.System
import Mandate.Ledger.Store
import Mandate.Ledger.CommitPlans
import Mandate.Ledger.Chain
import Mandate.Policy.Permitted
import Mandate.Policy.Engine
import Mandate.Crypto.Signing
import Mandate.Domain.Events
import Mandate.Domain.Lifecycle
import Mandate.Domain.Validation
import Mandate.Domain.Identifiers
