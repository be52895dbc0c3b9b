/-
  The authority claim a boundary hands to the engine.

  `buildClaim` verifies the record's own signature, looks for verified
  revocations of the record itself, and resolves its status; the delegation
  chain of a claim is always empty.
-/
import Mandate.Application.Services

namespace Mandate

variable [Platform]

def buildClaim (s : Store) (signer : GatewaySigner) (record : AuthorityRecord) (now : String) :
    Except PyError AuthorityClaim := do
  let result := verifyRecord record signer.publicKey (some signer.keyId)
  let revoked ← anyM (fun r =>
      if (verifyRevocation r signer.publicKey (some signer.keyId)).valid then
        revocationApplies r record now
      else .ok false)
    (s.listRevocations record.recordId)
  let status ← resolveStatus record now revoked
  return { record, signatureValid := result.valid, delegationChain := [], status }

/-- A stored, validly signed revocation of the record has arrived. -/
def Store.provenRevoked (s : Store) (signer : GatewaySigner) (recordId : String) (now : Timestamp) :
    Bool :=
  (s.listRevocations recordId).any fun r =>
    (verifyRevocation r signer.publicKey (some signer.keyId)).valid ∧
      r.revokedAt.instant ≤ now.instant

/-- The claim about a record at a validated time. -/
def Store.claimAt (s : Store) (signer : GatewaySigner) (record : AuthorityRecord)
    (now : Timestamp) : AuthorityClaim :=
  { record
    signatureValid := (verifyRecord record signer.publicKey (some signer.keyId)).valid
    delegationChain := []
    status :=
      if s.provenRevoked signer record.recordId now ∨ record.status = .revoked then .revoked
      else if record.expiresAt.instant < now.instant then .expired else .active }

omit [Platform] in
theorem Store.recordId_of_listed {s : Store} {recordId : String} {r : Revocation}
    (h : r ∈ s.listRevocations recordId) : r.recordId = recordId := by
  simpa using (List.mem_filter.1 h).2

/-- At a validated time the claim is built without an exception. -/
theorem buildClaim_text (s : Store) (signer : GatewaySigner) (record : AuthorityRecord)
    (now : Timestamp) : buildClaim s signer record now.text = .ok (s.claimAt signer record now) := by
  have hany : anyM (fun r =>
      if (verifyRevocation r signer.publicKey (some signer.keyId)).valid then
        revocationApplies r record now.text
      else .ok false) (s.listRevocations record.recordId) =
        .ok (s.provenRevoked signer record.recordId now) := by
    refine anyM_ok fun r hr => ?_
    cases hv : (verifyRevocation r signer.publicKey (some signer.keyId)).valid with
    | false => simp
    | true => simp [revocationApplies_text, s.recordId_of_listed hr]
  simp only [buildClaim, hany, resolveStatus_text, bind, Except.bind, pure, Except.pure]
  rfl

end Mandate
