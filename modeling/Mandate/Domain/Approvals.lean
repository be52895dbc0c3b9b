/-
  The approval lifecycle's two objects: the boundary's tracking row and the
  signed one-time override minted on a grant.
-/
import Mandate.Domain.Input

namespace Mandate

inductive ApprovalStatus where
  | pending | granted | denied
deriving DecidableEq, Repr

def ApprovalStatus.value : ApprovalStatus → String
  | pending => "pending"
  | granted => "granted"
  | denied => "denied"

instance : StrEnum ApprovalStatus where
  all := [.pending, .granted, .denied]
  value := ApprovalStatus.value
  mem_all s := by cases s <;> decide
  nodup := by decide

/-- A signed, single-use grant bound to one proposal. -/
structure ApprovalRecord where
  schemaVersion : String
  approvalRecordId : String
  dealId : String
  requestId : String
  parentAuthorityRecordId : String
  action : String
  amountMinor : Option ℕ
  currency : String
  proposalDigest : String
  issuedAt : Timestamp
  signature : SignatureBlock

/-- Every field but `signature`. -/
def ApprovalRecord.unsignedFields (r : ApprovalRecord) : List (String × Json) :=
  [("schema_version", .str r.schemaVersion), ("approval_record_id", .str r.approvalRecordId),
   ("deal_id", .str r.dealId), ("request_id", .str r.requestId),
   ("parent_authority_record_id", .str r.parentAuthorityRecordId), ("action", .str r.action),
   ("amount_minor", optInt (r.amountMinor.map fun n : ℕ => (n : ℤ))), ("currency", .str r.currency),
   ("proposal_digest", .str r.proposalDigest), ("issued_at", .str r.issuedAt.text)]

def ApprovalRecord.toJson (r : ApprovalRecord) : Json :=
  .obj (r.unsignedFields ++ [("signature", r.signature.toJson)])

/-- The tracking row of one approval. -/
structure Approval where
  approvalId : String
  dealId : String
  requestId : String
  authorityRecordId : String
  action : String
  amountMinor : Option ℤ
  currency : String
  proposalDigest : String
  reasonCode : ReasonCode
  status : ApprovalStatus
  decidedBy : Option String
  decidedAt : Option String
  commandId : Option String
  createdAt : String
deriving DecidableEq

def Approval.toJson (a : Approval) : Json :=
  .obj [("approval_id", .str a.approvalId), ("deal_id", .str a.dealId),
    ("request_id", .str a.requestId), ("authority_record_id", .str a.authorityRecordId),
    ("action", .str a.action), ("amount_minor", optInt a.amountMinor),
    ("currency", .str a.currency), ("proposal_digest", .str a.proposalDigest),
    ("reason_code", .str a.reasonCode.value), ("status", .str a.status.value),
    ("decided_by", optStr a.decidedBy), ("decided_at", optStr a.decidedAt),
    ("command_id", optStr a.commandId), ("created_at", .str a.createdAt)]

end Mandate
