/-
  Runs of the in-memory store under its operations.
-/
import Mandate.Lib.System
import Mandate.Ledger.Store

namespace Mandate

section
variable [Platform]

/-- A deal as it is registered: a draft with all counters at zero. -/
def Deal.fresh (dealId : String) : Deal := { dealId, state := .draft }

/-- An operation on the store. -/
inductive LedgerOp where
  | createDeal (dealId createdAt : String)
  | linkDealRecord (dealId recordId : String)
  | putRecord (record : AuthorityRecord)
  | putRevocation (revocation : Revocation)
  | commitRequest (req : CommitRequest)
  | commitTransition (req : TransitionRequest)
  | commitApproval (req : ApprovalRequest)
  | commitRevocation (req : RevocationRequest)

/-- The store after an operation. -/
def LedgerOp.run (signer : GatewaySigner) (ids : EventIds) (s : Store) : LedgerOp → Store
  | createDeal dealId createdAt => (s.createDeal (.fresh dealId) createdAt).2
  | linkDealRecord dealId recordId => (s.linkDealRecord dealId recordId).2
  | putRecord record => s.putRecord record
  | putRevocation revocation => s.putRevocation revocation
  | commitRequest req => (s.commitRequest req signer ids).2
  | commitTransition req => (s.commitTransition req signer ids).2
  | commitApproval req => (s.commitApproval req signer ids).2
  | commitRevocation req => (s.commitRevocation req signer ids).2

/-- A decision on an approval names the approval's own deal. -/
def LedgerOp.Filed (s : Store) : LedgerOp → Prop
  | commitApproval req => ∀ a ∈ s.approvals.get? req.approvalId, req.dealId = a.dealId
  | _ => True

/-- The store under all its operations. -/
def ledger (signer : GatewaySigner) : System Store where
  init s := s = .empty
  step s s' := ∃ (op : LedgerOp) (ids : EventIds), op.Filed s ∧ s' = op.run signer ids s

end

open Sample in
/-- A request for a quote by the operator. -/
def Sample.quoteRequested : TransitionRequest :=
  { dealId, commandId := ulid 'C', event := .quoteRequested, actorKind := .principal
    actorId := ulid 'P', authorityRecordId := none, amountMinor := none
    occurredAt := now.text, recordedAt := now.text }

end Mandate
