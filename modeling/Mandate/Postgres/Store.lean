/-
  The Postgres ledger store: each operation as the statements of its
  transaction, in the order they run.

  A transaction reads, claims its keys with inserts that give way, reads the
  head of the chain, plans, and writes.  It uses the plans of
  `Mandate.Ledger.CommitPlans`, as the in-memory store does.
-/
import Mandate.Postgres.Tables
import Mandate.Application.Services
import Mandate.Domain.Reading

namespace Mandate

variable [Platform]

/-- A transaction on the ledger's tables. -/
abbrev Transaction (α : Type) := Program Query.Answer Write PyError α

/-- `Approval.model_validate` on a stored row.  A row is validated when it is
    made; a decision then sets these two members without validation. -/
def Approval.modelValidate (row : Approval) : Except PyError Approval := do
  let decidedAt ← match row.decidedAt with
    | none => pure none
    | some v => do pure (some (← validateRfc3339 v))
  let commandId ← match row.commandId with
    | none => pure none
    | some v => do pure (some (← validateUlid v))
  return { row with decidedAt, commandId }

/-- The seen-request state of the database. -/
def Tables.seen (t : Tables) : SeenStore :=
  { nonceOwner := t.seenNonces.get?
    seenRequest := fun requestId => requestId ∈ t.seenRequests
    decisionFor := t.idempotency.get? }

namespace Postgres

/-! ## Set-up -/

def createDeal (deal : Deal) (createdAt : String) : Transaction Unit :=
  .select (.deal deal.dealId) fun existing =>
    if existing.isSome then .fail (.valueError s!"deal {deal.dealId} already exists")
    else .write (.deal deal createdAt) (.done ())

def linkDealRecord (dealId recordId : String) : Transaction Unit :=
  .select (.dealLink dealId) fun
    | some existing =>
      if existing ≠ recordId then
        .fail (.valueError s!"deal {dealId} is already linked to record {existing}")
      else .done ()
    | none => .write (.dealLink dealId recordId) (.done ())

def putRecord (record : AuthorityRecord) : Transaction Unit :=
  .claim (.record record) fun _ => .done ()

def putRevocation (revocation : Revocation) : Transaction Unit :=
  .claim (.revocation revocation) fun _ => .done ()

/-! ## Requests -/

/-- A result that commits nothing. -/
def refuse (outcome : CommitOutcome) (detail : String) (newDeal : Option Deal) :
    Transaction CommitResult := .done ⟨outcome, detail, [], newDeal⟩

/-- The statements after the claims of a request. -/
def appendRequest (signer : GatewaySigner) (req : CommitRequest) (ids : EventIds) (deal : Deal)
    (event : Option DealEvent) : Transaction CommitResult :=
  .select (.chainHead req.dealId) fun (seq, prevHash) =>
    match planCommitRequest signer deal seq prevHash req event ids with
    | .error e => .fail e
    | .ok plan =>
      .writes (plan.events.map .event ++
        (if event.isSome ∨ plan.approval.isSome then [.updateDeal req.dealId plan.newDeal] else []) ++
        plan.approval.toList.map .approval)
      (.claim (.record req.record) fun _ => .done (Store.committed plan))

/-- Claim the nonce for the record, or find that it has it. -/
def claimNonce (req : CommitRequest) (k : Transaction CommitResult) : Transaction CommitResult :=
  .claim (.nonce req.record.nonce req.record.recordId) fun claimed =>
    if claimed then k
    else .select (.nonceOwner req.record.nonce) fun
      | none => .fail .noResultFound
      | some owner =>
        if owner ≠ req.record.recordId then
          refuse .alreadyApplied "nonce owned by another record; the stored verdict answers" none
        else k

def commitRequest (req : CommitRequest) (signer : GatewaySigner) (ids : EventIds) :
    Transaction CommitResult :=
  .select (.deal req.dealId) fun
    | none => refuse .dealNotFound "deal row not found" none
    | some deal =>
      match planTransition deal req.action req.decision.outcome with
      | .error abort => refuse .staleState abort none
      | .ok event =>
        .claim (.idempotency req.idempotencyKey req.proposalDigest req.decision) fun claimed =>
          if !claimed then
            refuse .alreadyApplied "idempotency key already committed; the stored decision answers"
              none
          else .claim (.request req.requestId) fun claimed =>
            if !claimed then
              refuse .alreadyApplied "request_id already seen; the stored verdict answers" none
            else claimNonce req (appendRequest signer req ids deal event)

/-! ## Commands -/

/-- Claim a command, or answer that it was applied. -/
def claimCommand (commandId : String) (deal : Deal) (k : Transaction CommitResult) :
    Transaction CommitResult :=
  .claim (.command commandId) fun claimed =>
    if claimed then k
    else refuse .alreadyApplied s!"command {commandId} already applied" deal

/-- Answer a command that was applied. -/
def unlessApplied (commandId : String) (deal : Deal) (k : Transaction CommitResult) :
    Transaction CommitResult :=
  .select (.command commandId) fun command =>
    if command then refuse .alreadyApplied s!"command {commandId} already applied" deal
    else k

def commitTransition (req : TransitionRequest) (signer : GatewaySigner) (ids : EventIds) :
    Transaction CommitResult :=
  .select (.deal req.dealId) fun
    | none => refuse .dealNotFound "deal row not found" none
    | some deal =>
      unlessApplied req.commandId deal <|
        match transitionFor deal.state req.event with
        | none => refuse .staleState (s!"stale_state: event {pyRepr req.event.value} is not " ++
            s!"valid from stored state {deal.state.value}") none
        | some target =>
          claimCommand req.commandId deal <| .select (.chainHead req.dealId) fun (seq, prevHash) =>
            match planCommitTransition signer deal seq prevHash req target ids with
            | .error e => .fail e
            | .ok plan =>
              .writes (plan.events.map .event ++ [.updateDeal req.dealId plan.newDeal])
                (.done (Store.committed plan))

section
variable [TextForms]

/-- The parent record of an approval, and whether a stored revocation applies
    to it at the time of the decision. -/
def grantRecheckInputs (approval : Approval) (occurredAt : String)
    (k : Option AuthorityRecord × Bool → Transaction CommitResult) : Transaction CommitResult :=
  .select (.record approval.authorityRecordId) fun
    | none => k (none, false)
    | some row =>
      match row.modelValidate with
      | .error e => .fail e
      | .ok record => .select (.revocations record.recordId) fun rows =>
        match anyM (fun r => revocationApplies r record occurredAt) rows with
        | .error e => .fail e
        | .ok revoked => k (some record, revoked)

/-- What a grant is planned with; a deny needs nothing. -/
def approvalInputs (req : ApprovalRequest) (approval : Approval)
    (k : Option ActionToken × Option AuthorityRecord × Bool → Transaction CommitResult) :
    Transaction CommitResult :=
  match req.operation with
  | .denied => k (none, none, false)
  | .granted =>
    match (StrEnum.ofValue? req.action : Option ActionToken) with
    | none => refuse .staleState s!"stale_state: unknown action {pyRepr req.action}" none
    | some token => grantRecheckInputs approval req.occurredAt fun inputs => k (some token, inputs)

def commitApproval (req : ApprovalRequest) (signer : GatewaySigner) (ids : EventIds) :
    Transaction CommitResult :=
  .select (.deal req.dealId) fun
    | none => refuse .dealNotFound "deal row not found" none
    | some deal => .select (.approval req.approvalId) fun
      | none => refuse .approvalNotFound "approval not found" none
      | some row =>
        match row.modelValidate with
        | .error e => .fail e
        | .ok approval =>
          if approval.status ≠ .pending then
            refuse .alreadyApplied s!"approval {req.approvalId} already {approval.status.value}"
              deal
          else unlessApplied req.commandId deal <|
            approvalInputs req approval fun (token, record, revoked) =>
              claimCommand req.commandId deal <|
                .select (.chainHead req.dealId) fun (seq, prevHash) =>
                  match planCommitApproval signer deal approval seq prevHash req record revoked
                      token ids with
                  | .error e => .fail e
                  | .ok plan =>
                    match plan.approval with
                    | none => .fail .assertionError
                    | some decided =>
                      .writes (plan.events.map .event ++ [.updateDeal req.dealId plan.newDeal,
                          .updateApproval req.approvalId decided])
                        (.done (Store.committed plan))

end

/-- Record one revocation as a chain event. -/
def commitRevocation (req : RevocationRequest) (signer : GatewaySigner) (ids : EventIds) :
    Transaction CommitResult :=
  .select (.deal req.dealId) fun
    | none => refuse .dealNotFound "deal row not found" none
    | some deal =>
      unlessApplied req.commandId deal <| .select (.record req.revocation.recordId) fun
        | none => refuse .recordNotFound
            s!"authority record {req.revocation.recordId} not found" deal
        | some _ => .select (.revocations req.revocation.recordId) fun existing =>
          if existing ≠ [] then
            refuse .alreadyApplied s!"record {req.revocation.recordId} already revoked" deal
          else claimCommand req.commandId deal <|
            .select (.chainHead req.dealId) fun (seq, prevHash) =>
              match planCommitRevocation signer deal seq prevHash req ids with
              | .error e => .fail e
              | .ok plan =>
                .writes (plan.events.map .event) (.claim (.revocation req.revocation) fun _ =>
                  .done ⟨.committed, "1 event appended", plan.events, some deal⟩)

/-! ## Processing -/

/-- The anti-replay gate: its verdict on what its reads are answered, up to the
    one that decides. -/
def gate {α : Type} (pi : PolicyInput) (k : GateVerdict → Transaction α) : Transaction α :=
  .select (.decision pi.proposal.idempotencyKey) fun
    | some stored => k (checkAntiReplay pi ⟨fun _ => none, fun _ => false, fun _ => some stored⟩)
    | none => .select (.seenRequest pi.requestId) fun seen =>
      if seen then k (checkAntiReplay pi ⟨fun _ => none, fun _ => true, fun _ => none⟩)
      else .select (.nonceOwner pi.authority.record.nonce) fun owner =>
        k (checkAntiReplay pi ⟨fun _ => owner, fun _ => false, fun _ => none⟩)

/-- A request up to its commit: `none` when the gate stops it. -/
def submit (pi : PolicyInput) (signer : GatewaySigner) (recordedAt : String) (ids : EventIds) :
    Transaction (Option CommitResult) :=
  gate pi fun verdict =>
    if verdict.outcome = .pass then
      (commitRequest (pi.commitRequest recordedAt) signer ids).map some
    else .done none

end Postgres

end Mandate
