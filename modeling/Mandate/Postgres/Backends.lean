/-
  The two backends of the ledger store, operation by operation.

  An operation of the store's protocol runs on the in-memory store or, as one
  transaction, on the tables; either way it has an answer.  A request is
  processed by the same service over both.
-/
import Mandate.Postgres.Runs

namespace Mandate

variable [Platform]

/-- An operation on either store. -/
inductive StoreOp where
  | createDeal (deal : Deal) (createdAt : String)
  | linkDealRecord (dealId recordId : String)
  | putRecord (record : AuthorityRecord)
  | putRevocation (revocation : Revocation)
  | processRequest (pi : PolicyInput) (recordedAt : String) (ids : EventIds)
  | commitTransition (req : TransitionRequest) (ids : EventIds)
  | commitApproval (req : ApprovalRequest) (ids : EventIds)
  | commitRevocation (req : RevocationRequest) (ids : EventIds)

/-- What an operation answers. -/
inductive Reply where
  | done
  | processed (result : ProcessResult)
  | commit (result : CommitResult)

/-- The commit of an answer, if it has one. -/
def Reply.commit? : Reply → Option CommitResult
  | done => none
  | processed result => result.commit
  | commit result => some result

/-- The ids an operation may draw. -/
def StoreOp.ids? : StoreOp → Option EventIds
  | processRequest _ _ ids => some ids
  | commitTransition _ ids => some ids
  | commitApproval _ ids => some ids
  | commitRevocation _ ids => some ids
  | _ => none

/-- An answer and the state after it. -/
abbrev Replied (σ : Type) := Except PyError Reply × σ

/-- The commit of what an operation answered, if it has one. -/
def Replied.commit? {σ : Type} (r : Replied σ) : Option CommitResult :=
  r.1.toOption.bind Reply.commit?

/-- The result of an operation, as an answer. -/
def reply {α σ : Type} (f : α → Reply) (r : Except PyError α × σ) : Replied σ :=
  (r.1.map f, r.2)

/-- The operation on the in-memory store. -/
def StoreOp.inMemory (signer : GatewaySigner) (s : Store) : StoreOp → Replied Store
  | createDeal deal createdAt => reply (fun _ => .done) (s.createDeal deal createdAt)
  | linkDealRecord dealId recordId => reply (fun _ => .done) (s.linkDealRecord dealId recordId)
  | putRecord record => (.ok .done, s.putRecord record)
  | putRevocation revocation => (.ok .done, s.putRevocation revocation)
  | processRequest pi recordedAt ids =>
    reply .processed (Mandate.processRequest s pi signer recordedAt ids)
  | commitTransition req ids => reply .commit (s.commitTransition req signer ids)
  | commitApproval req ids => reply .commit (s.commitApproval req signer ids)
  | commitRevocation req ids => reply .commit (s.commitRevocation req signer ids)

/-- `process_request` over the tables: the gate reads, the commit is one
    transaction, and a commit that lost its claims is answered by the gate. -/
def Tables.processRequest (t : Tables) (pi : PolicyInput) (signer : GatewaySigner)
    (recordedAt : String) (ids : EventIds) : Except PyError ProcessResult × Tables :=
  let verdict := checkAntiReplay pi t.seen
  match verdict.outcome with
  | .idempotentHit => (.ok ⟨verdict, verdict.decision, none⟩, t)
  | .replay | .conflict => (.ok ⟨verdict, none, none⟩, t)
  | .pass =>
    match postgres.alone t (Postgres.commitRequest (pi.commitRequest recordedAt) signer ids) with
    | (.error e, t') => (.error e, t')
    | (.ok commit, t') =>
      if commit.outcome = .alreadyApplied then
        let verdict := checkAntiReplay pi t'.seen
        (.ok ⟨verdict, verdict.decision, none⟩, t')
      else (.ok ⟨verdict, some (evaluate pi), some commit⟩, t')

/-- The operation on the tables, as transactions that run alone. -/
def StoreOp.inPostgres [TextForms] (signer : GatewaySigner) (t : Tables) : StoreOp → Replied Tables
  | createDeal deal createdAt =>
    reply (fun _ => .done) (postgres.alone t (Postgres.createDeal deal createdAt))
  | linkDealRecord dealId recordId =>
    reply (fun _ => .done) (postgres.alone t (Postgres.linkDealRecord dealId recordId))
  | putRecord record => reply (fun _ => .done) (postgres.alone t (Postgres.putRecord record))
  | putRevocation revocation =>
    reply (fun _ => .done) (postgres.alone t (Postgres.putRevocation revocation))
  | processRequest pi recordedAt ids =>
    reply .processed (t.processRequest pi signer recordedAt ids)
  | commitTransition req ids =>
    reply .commit (postgres.alone t (Postgres.commitTransition req signer ids))
  | commitApproval req ids =>
    reply .commit (postgres.alone t (Postgres.commitApproval req signer ids))
  | commitRevocation req ids =>
    reply .commit (postgres.alone t (Postgres.commitRevocation req signer ids))

end Mandate
