/-
  Pure commit plans: what each of the four commits appends, the deal it leaves
  and the approval row it writes.  Both ledger backends share them.

  Each plan function comes with an inversion: a plan it returns is one of a
  few shapes (`RequestPlan`, `ApprovalPlan`), given by the events it is made
  of.  Everything later is derived from these shapes.
-/
import Mandate.Domain.Lifecycle
import Mandate.Ledger.Chain

namespace Mandate

variable [Platform]

/-! ## Requests to the store -/

/-- Everything the store needs to commit one policy outcome. -/
structure CommitRequest where
  dealId : String
  requestId : String
  decision : PolicyDecision
  actorKind : ActorKind
  actorId : String
  authorityRecordId : String
  action : String
  amountMinor : Option ℤ
  occurredAt : String
  recordedAt : String
  idempotencyKey : String
  proposalDigest : String
  record : AuthorityRecord
  content : Option ScreenedContent := none
  declaredFields : List String := []

/-- A boundary or operator transition; `commandId` dedupes retries. -/
structure TransitionRequest where
  dealId : String
  commandId : String
  event : DealEvent
  actorKind : ActorKind
  actorId : String
  authorityRecordId : Option String
  amountMinor : Option ℤ
  occurredAt : String
  recordedAt : String
  note : String := ""
  content : Option ScreenedContent := none

/-- The operator's call on one pending approval. -/
inductive ApprovalDecision where
  | granted | denied
deriving DecidableEq, Repr

/-- A decision on an approval.  A grant needs the signed record, a deny
    carries a reason. -/
structure ApprovalRequest where
  dealId : String
  approvalId : String
  commandId : String
  operation : ApprovalDecision
  actorKind : ActorKind
  actorId : String
  authorityRecordId : String
  action : String
  amountMinor : Option ℤ
  occurredAt : String
  recordedAt : String
  decidedBy : String
  approvalRecord : Option ApprovalRecord := none
  denyReason : Option String := none

/-- A signed revocation and the deal whose chain it lands on. -/
structure RevocationRequest where
  dealId : String
  revocation : Revocation
  commandId : String
  actorKind : ActorKind
  actorId : String
  occurredAt : String
  recordedAt : String

/-- What a commit persists. -/
structure CommitPlan where
  events : List Event
  newDeal : Deal
  approval : Option Approval := none

/-! ## The policy outcome -/

def CommitRequest.header (req : CommitRequest) : EventHeader :=
  { dealId := req.dealId
    actorKind := req.actorKind
    actorId := req.actorId
    authorityRecordId := some req.authorityRecordId
    occurredAt := req.occurredAt
    recordedAt := req.recordedAt }

variable (signer : GatewaySigner)

/-- The message event of a request that carried content. -/
def CommitRequest.messages (req : CommitRequest) (id : String) (seq : ℕ) (prevHash : String) :
    List Event :=
  match req.content with
  | some content => [buildEvent signer req.header id seq .message prevHash
      (outboundMessagePayload content req.requestId req.action req.declaredFields)]
  | none => []

def CommitRequest.decisionEvent (req : CommitRequest) (id : String) (seq : ℕ)
    (prevHash : String) : Event :=
  buildEvent signer req.header id seq .policyDecision prevHash
    (decisionPayload req.requestId req.action req.decision req.amountMinor req.idempotencyKey
      req.proposalDigest)

def CommitRequest.transitionEvent (req : CommitRequest) (id : String) (seq : ℕ)
    (prevHash : String) (event : DealEvent) (deal newDeal : Deal) : Event :=
  buildEvent signer req.header id seq .stateTransition prevHash
    (transitionPayload (.request req.requestId req.action) event deal newDeal req.amountMinor)

def CommitRequest.requiredEvent (req : CommitRequest) (id : String) (seq : ℕ)
    (prevHash approvalId : String) : Event :=
  buildEvent signer req.header id seq .approval prevHash
    (approvalRequiredPayload req.requestId req.action req.amountMinor approvalId
      req.record.spendCap.currency req.authorityRecordId req.decision.reasonCode.value)

/-- The pending row of a held request; its fields are validated. -/
def CommitRequest.pendingApproval (req : CommitRequest) (approvalId : String) :
    Except PyError Approval := do
  let requestId ← validateUlid req.requestId
  let createdAt ← validateRfc3339 req.recordedAt
  let amount ← validateAmountMinor req.amountMinor
  return {
    approvalId
    dealId := req.dealId
    requestId
    authorityRecordId := req.authorityRecordId
    action := req.action
    amountMinor := amount.map fun n : ℕ => (n : ℤ)
    currency := req.record.spendCap.currency
    proposalDigest := req.proposalDigest
    reasonCode := req.decision.reasonCode
    status := .pending
    decidedBy := none
    decidedAt := none
    commandId := none
    createdAt }

/-- `ActionToken(action)`. -/
def actionToken (action : String) : Except PyError ActionToken :=
  match StrEnum.ofValue? action with
  | some token => .ok token
  | none => .error (.valueError s!"{pyRepr action} is not a valid ActionToken")

/-- The events every committed request appends: the message of screened
    content, then the decision. -/
def CommitRequest.recorded (req : CommitRequest) (messageId decisionId : String) (seq : ℕ)
    (prevHash : String) : List Event :=
  extend seq prevHash (req.messages signer messageId seq prevHash)
    (req.decisionEvent signer decisionId)

/-- The transition of an allowed action. -/
def CommitRequest.planEvent (req : CommitRequest) (deal : Deal) (seq : ℕ) (prevHash : String)
    (recorded : List Event) (ids : EventIds) : Option DealEvent → Except PyError CommitPlan
  | none => .ok { events := recorded, newDeal := deal }
  | some event => do
    let newDeal ← applyAction deal (← actionToken req.action) req.amountMinor
    let id ← makeEventId req.recordedAt (ids 2)
    return {
      events := extend seq prevHash recorded fun n prev =>
        req.transitionEvent signer id n prev event deal newDeal
      newDeal }

/-- The pending approval of a held action. -/
def CommitRequest.planApproval (req : CommitRequest) (deal : Deal) (seq : ℕ) (prevHash : String)
    (ids : EventIds) (plan : CommitPlan) : Except PyError CommitPlan :=
  if req.decision.outcome = .needsApproval then do
    let approval ← req.pendingApproval (← makeEventId req.recordedAt (ids 2))
    let id ← makeEventId req.recordedAt (ids 3)
    return {
      events := extend seq prevHash plan.events fun n prev =>
        req.requiredEvent signer id n prev approval.approvalId
      newDeal := { deal with openApprovals := deal.openApprovals + 1 }
      approval := some approval }
  else .ok plan

/-- The policy-outcome commit. -/
def planCommitRequest (deal : Deal) (seq : ℕ) (prevHash : String) (req : CommitRequest)
    (event : Option DealEvent) (ids : EventIds) : Except PyError CommitPlan := do
  let messageId ← makeEventId req.recordedAt (ids 0)
  let decisionId ← makeEventId req.recordedAt (ids 1)
  let recorded := req.recorded signer messageId decisionId seq prevHash
  let plan ← req.planEvent signer deal seq prevHash recorded ids event
  req.planApproval signer deal seq prevHash ids plan

/-! ## Boundary transitions -/

def TransitionRequest.header (req : TransitionRequest) : EventHeader :=
  { dealId := req.dealId
    actorKind := req.actorKind
    actorId := req.actorId
    authorityRecordId := req.authorityRecordId
    occurredAt := req.occurredAt
    recordedAt := req.recordedAt }

/-- The message event of a screened note. -/
def TransitionRequest.messages (req : TransitionRequest) (id : String) (seq : ℕ)
    (prevHash : String) : List Event :=
  match req.content with
  | some content => [buildEvent signer req.header id seq .message prevHash
      (inboundMessagePayload content req.commandId req.event.value)]
  | none => []

def TransitionRequest.transitionEvent (req : TransitionRequest) (id : String) (seq : ℕ)
    (prevHash : String) (deal newDeal : Deal) : Event :=
  buildEvent signer req.header id seq .stateTransition prevHash
    (transitionPayload (.command req.commandId req.note) req.event deal newDeal req.amountMinor)

/-- One transition event to `target`, after the message event of a screened
    note. -/
def planCommitTransition (deal : Deal) (seq : ℕ) (prevHash : String) (req : TransitionRequest)
    (target : DealState) (ids : EventIds) : Except PyError CommitPlan := do
  let newDeal := applyEvent deal req.event target req.amountMinor
  let messageId ← makeEventId req.recordedAt (ids 0)
  let messages := req.messages signer messageId seq prevHash
  let id ← makeEventId req.recordedAt (ids 1)
  return {
    events := extend seq prevHash messages fun n prev =>
      req.transitionEvent signer id n prev deal newDeal
    newDeal }

/-! ## Decisions on approvals -/

/-- The rechecks a grant passes before it applies its transition: the parent
    record is current, and the stored deal still permits the action.  The
    error is the reason of a forced deny. -/
def grantRecheck (record : Option AuthorityRecord) (revoked : Bool) (deal : Deal)
    (token : ActionToken) (occurredAt : String) : Except PyError (Except String DealEvent) :=
  match record with
  | none => .ok (.error ("parent authority record is missing from the ledger; " ++
      "the grant is denied and the approval is closed"))
  | some record => do
    let status ← resolveStatus record occurredAt revoked
    if status ≠ .active then
      return .error ("parent authority is no longer current at decision time " ++
        s!"({status.value}); the grant is denied and the approval is closed")
    else match (actionEvents token).filter fun event => (transitionFor deal.state event).isSome with
      | some event => return .ok event
      | none => return .error (
          s!"transition is no longer valid: {pyRepr token.value} cannot be applied from " ++
          s!"stored state {deal.state.value}; the grant is denied and the approval is closed")

def ApprovalRequest.header (req : ApprovalRequest) : EventHeader :=
  { dealId := req.dealId
    actorKind := req.actorKind
    actorId := req.actorId
    authorityRecordId := some req.authorityRecordId
    occurredAt := req.occurredAt
    recordedAt := req.recordedAt }

def ApprovalRequest.grantedEvent (req : ApprovalRequest) (id : String) (seq : ℕ)
    (prevHash requestId : String) (approvalRecord : ApprovalRecord) : Event :=
  buildEvent signer req.header id seq .approval prevHash
    (approvalGrantedPayload requestId req.action req.amountMinor req.commandId req.decidedBy
      approvalRecord)

def ApprovalRequest.deniedEvent (req : ApprovalRequest) (id : String) (seq : ℕ)
    (prevHash requestId : String) (denyReason : Option String) : Event :=
  buildEvent signer req.header id seq .approval prevHash
    (approvalDeniedPayload requestId req.action req.amountMinor req.commandId req.decidedBy
      denyReason)

def ApprovalRequest.transitionEvent (req : ApprovalRequest) (id : String) (seq : ℕ)
    (prevHash requestId : String) (event : DealEvent) (deal newDeal : Deal) : Event :=
  buildEvent signer req.header id seq .stateTransition prevHash
    (transitionPayload (.request requestId req.action) event deal newDeal req.amountMinor)

/-- The row of a decided approval. -/
def ApprovalRequest.decide (req : ApprovalRequest) (approval : Approval)
    (status : ApprovalStatus) : Approval :=
  { approval with
    status
    decidedBy := some req.decidedBy
    decidedAt := some req.recordedAt
    commandId := some req.commandId }

/-- One approval fewer, never below zero. -/
def Deal.closeApproval (deal : Deal) : Deal :=
  { deal with openApprovals := max 0 (deal.openApprovals - 1) }

/-- A grant's transition, or the reason of a deny. -/
def ApprovalRequest.verdict (req : ApprovalRequest) (deal : Deal)
    (record : Option AuthorityRecord) (revoked : Bool) (token : Option ActionToken) :
    Except PyError (Except (Option String) (ApprovalRecord × ActionToken × DealEvent)) :=
  match req.operation with
  | .denied => .ok (.error req.denyReason)
  | .granted =>
    match req.approvalRecord, token with
    | none, _ => .error (.valueError "grant requires a signed approval record")
    | some _, none => .error .assertionError
    | some approvalRecord, some token => do
      match ← grantRecheck record revoked deal token req.occurredAt with
      | .error forcedDeny => return .error (some forcedDeny)
      | .ok event => return .ok (approvalRecord, token, event)

/-- Decide one pending approval.  A grant that fails a recheck is a logged
    deny. -/
def planCommitApproval (deal : Deal) (approval : Approval) (seq : ℕ) (prevHash : String)
    (req : ApprovalRequest) (record : Option AuthorityRecord) (revoked : Bool)
    (token : Option ActionToken) (ids : EventIds) : Except PyError CommitPlan := do
  match ← req.verdict deal record revoked token with
  | .ok (approvalRecord, token, event) =>
    let newDeal := (← applyAction deal token req.amountMinor).closeApproval
    let approvalId ← makeEventId req.recordedAt (ids 0)
    let approvalEvent :=
      req.grantedEvent signer approvalId seq prevHash approval.requestId approvalRecord
    let id ← makeEventId req.recordedAt (ids 1)
    return {
      events := extend seq prevHash [approvalEvent] fun n prev =>
        req.transitionEvent signer id n prev approval.requestId event deal newDeal
      newDeal
      approval := some (req.decide approval .granted) }
  | .error denyReason =>
    let id ← makeEventId req.recordedAt (ids 0)
    return {
      events := [req.deniedEvent signer id seq prevHash approval.requestId denyReason]
      newDeal := deal.closeApproval
      approval := some (req.decide approval .denied) }

/-! ## Revocations -/

def RevocationRequest.header (req : RevocationRequest) : EventHeader :=
  { dealId := req.dealId
    actorKind := req.actorKind
    actorId := req.actorId
    authorityRecordId := some req.revocation.recordId
    occurredAt := req.occurredAt
    recordedAt := req.recordedAt }

def RevocationRequest.revocationEvent (req : RevocationRequest) (id : String) (seq : ℕ)
    (prevHash : String) : Event :=
  buildEvent signer req.header id seq .revocation prevHash (revocationPayload req.revocation)

/-- One revocation event; the deal is unchanged. -/
def planCommitRevocation (deal : Deal) (seq : ℕ) (prevHash : String) (req : RevocationRequest)
    (ids : EventIds) : Except PyError CommitPlan := do
  let id ← makeEventId req.recordedAt (ids 0)
  return { events := [req.revocationEvent signer id seq prevHash], newDeal := deal }

/-! ## What the events say -/

section
variable {signer}

@[simp] theorem CommitRequest.decisionEvent_eventType (req : CommitRequest) (id : String) (n : ℕ)
    (prev : String) : (req.decisionEvent signer id n prev).eventType = .policyDecision := rfl

@[simp] theorem CommitRequest.transitionEvent_eventType (req : CommitRequest) (id : String)
    (n : ℕ) (prev : String) (event : DealEvent) (deal newDeal : Deal) :
    (req.transitionEvent signer id n prev event deal newDeal).eventType = .stateTransition := rfl

@[simp] theorem CommitRequest.requiredEvent_eventType (req : CommitRequest) (id : String) (n : ℕ)
    (prev approvalId : String) :
    (req.requiredEvent signer id n prev approvalId).eventType = .approval := rfl

@[simp] theorem TransitionRequest.transitionEvent_eventType (req : TransitionRequest)
    (id : String) (n : ℕ) (prev : String) (deal newDeal : Deal) :
    (req.transitionEvent signer id n prev deal newDeal).eventType = .stateTransition := rfl

@[simp] theorem ApprovalRequest.grantedEvent_eventType (req : ApprovalRequest) (id : String)
    (n : ℕ) (prev requestId : String) (approvalRecord : ApprovalRecord) :
    (req.grantedEvent signer id n prev requestId approvalRecord).eventType = .approval := rfl

@[simp] theorem ApprovalRequest.deniedEvent_eventType (req : ApprovalRequest) (id : String)
    (n : ℕ) (prev requestId : String) (denyReason : Option String) :
    (req.deniedEvent signer id n prev requestId denyReason).eventType = .approval := rfl

@[simp] theorem ApprovalRequest.transitionEvent_eventType (req : ApprovalRequest) (id : String)
    (n : ℕ) (prev requestId : String) (event : DealEvent) (deal newDeal : Deal) :
    (req.transitionEvent signer id n prev requestId event deal newDeal).eventType =
      .stateTransition := rfl

@[simp] theorem RevocationRequest.revocationEvent_eventType (req : RevocationRequest)
    (id : String) (n : ℕ) (prev : String) :
    (req.revocationEvent signer id n prev).eventType = .revocation := rfl

theorem mem_messages {req : CommitRequest} {id : String} {n : ℕ} {prev : String} {e : Event}
    (h : e ∈ req.messages signer id n prev) : e.eventType = .message := by
  unfold CommitRequest.messages at h
  split at h
  · rw [List.mem_singleton] at h; subst h; rfl
  · cases h

theorem mem_transitionMessages {req : TransitionRequest} {id : String} {n : ℕ} {prev : String}
    {e : Event} (h : e ∈ req.messages signer id n prev) : e.eventType = .message := by
  unfold TransitionRequest.messages at h
  split at h
  · rw [List.mem_singleton] at h; subst h; rfl
  · cases h

/-- The decision a request commit records. -/
def CommitRequest.decisionEntry (req : CommitRequest) : DecisionEntry :=
  ⟨req.requestId, req.action, req.decision.outcome, req.decision.reasonCode,
    req.decision.inputDigest, req.amountMinor, req.idempotencyKey, req.proposalDigest⟩

variable (id : String) (n : ℕ) (prev : String)

@[simp] theorem CommitRequest.decisionEvent_decision? (req : CommitRequest) :
    (req.decisionEvent signer id n prev).decision? = some req.decisionEntry :=
  decision?_built ..

@[simp] theorem CommitRequest.transitionEvent_transition? (req : CommitRequest)
    (event : DealEvent) (deal newDeal : Deal) :
    (req.transitionEvent signer id n prev event deal newDeal).transition? =
      some ⟨event, deal.state, newDeal.state, req.amountMinor, some req.requestId⟩ :=
  transition?_built ..

@[simp] theorem CommitRequest.requiredEvent_approval? (req : CommitRequest)
    (approvalId : String) :
    (req.requiredEvent signer id n prev approvalId).approval? =
      some ⟨.required, req.requestId, req.action, req.amountMinor⟩ :=
  approval?_built ..

@[simp] theorem TransitionRequest.transitionEvent_transition? (req : TransitionRequest)
    (deal newDeal : Deal) :
    (req.transitionEvent signer id n prev deal newDeal).transition? =
      some ⟨req.event, deal.state, newDeal.state, req.amountMinor, none⟩ :=
  transition?_built ..

@[simp] theorem ApprovalRequest.grantedEvent_approval? (req : ApprovalRequest)
    (requestId : String) (approvalRecord : ApprovalRecord) :
    (req.grantedEvent signer id n prev requestId approvalRecord).approval? =
      some ⟨.granted, requestId, req.action, req.amountMinor⟩ :=
  approval?_built ..

@[simp] theorem ApprovalRequest.deniedEvent_approval? (req : ApprovalRequest)
    (requestId : String) (denyReason : Option String) :
    (req.deniedEvent signer id n prev requestId denyReason).approval? =
      some ⟨.denied, requestId, req.action, req.amountMinor⟩ :=
  approval?_built ..

@[simp] theorem ApprovalRequest.transitionEvent_transition? (req : ApprovalRequest)
    (requestId : String) (event : DealEvent) (deal newDeal : Deal) :
    (req.transitionEvent signer id n prev requestId event deal newDeal).transition? =
      some ⟨event, deal.state, newDeal.state, req.amountMinor, some requestId⟩ :=
  transition?_built ..

end

/-- The fields of a held request's row. -/
structure PendingOf (req : CommitRequest) (approval : Approval) : Prop where
  dealId : approval.dealId = req.dealId
  requestId : approval.requestId = req.requestId
  authorityRecordId : approval.authorityRecordId = req.authorityRecordId
  action : approval.action = req.action
  amountMinor : approval.amountMinor = req.amountMinor
  currency : approval.currency = req.record.spendCap.currency
  proposalDigest : approval.proposalDigest = req.proposalDigest
  status : approval.status = .pending

omit [Platform] in
theorem validateAmountMinor_ok {v : Option ℤ} {n : Option ℕ} (h : validateAmountMinor v = .ok n) :
    (n.map fun k : ℕ => (k : ℤ)) = v := by
  unfold validateAmountMinor at h
  cases v with
  | none => cases h; rfl
  | some v =>
    simp only at h
    split_ifs at h with hv
    cases h
    simp [Int.toNat_of_nonneg (not_lt.1 hv)]

theorem validateUlid_ok {v w : String} (h : validateUlid v = .ok w) : w = v := by
  unfold validateUlid at h
  split_ifs at h
  cases h; rfl

theorem pendingApproval_ok {req : CommitRequest} {aid : String} {approval : Approval}
    (h : req.pendingApproval aid = .ok approval) : PendingOf req approval := by
  obtain ⟨requestId, hr, h⟩ := bind_ok.1 h
  obtain ⟨createdAt, -, h⟩ := bind_ok.1 h
  obtain ⟨amount, ha, h⟩ := bind_ok.1 h
  cases h
  exact ⟨rfl, validateUlid_ok hr, rfl, rfl, validateAmountMinor_ok ha, rfl, rfl, rfl⟩

/-! ## The shapes of a plan -/

/-- A recheck that goes through: no event, or the table's transition of an
    allowed action. -/
inductive TransitionCheck (deal : Deal) (action : String) (outcome : Outcome) :
    Option DealEvent → Prop
  | notAllowed (h : outcome ≠ .allow) : TransitionCheck deal action outcome none
  | decisionOnly (token : ActionToken) (ho : outcome = .allow) (hv : token.value = action)
      (he : actionEvents token = none) : TransitionCheck deal action outcome none
  | applies (token : ActionToken) (event : DealEvent) (target : DealState)
      (ho : outcome = .allow) (hv : token.value = action) (he : actionEvents token = some event)
      (ht : transitionFor deal.state event = some target) :
      TransitionCheck deal action outcome (some event)

omit [Platform] in
theorem actionToken_eq_some {action : String} {token : ActionToken} :
    (StrEnum.ofValue? action : Option ActionToken) = some token ↔ token.value = action :=
  StrEnum.ofValue?_eq_some

theorem transitionCheck_of_ok {deal : Deal} {action : String} {outcome : Outcome}
    {event : Option DealEvent} (h : planTransition deal action outcome = .ok event) :
    TransitionCheck deal action outcome event := by
  unfold planTransition at h
  split_ifs at h with ho
  · cases h; exact .notAllowed ho
  · have ho := not_not.1 ho
    split at h
    · cases h
    · rename_i token hv
      have hv := actionToken_eq_some.1 hv
      split at h
      · rename_i he; cases h; exact .decisionOnly token ho hv he
      · rename_i event he
        split_ifs at h with ht
        obtain ⟨target, ht⟩ := Option.ne_none_iff_exists'.1 ht
        cases h; exact .applies token event target ho hv he ht

theorem planTransition_applies {deal : Deal} {action : String} {token : ActionToken} {event : DealEvent}
    {target : DealState} (hv : token.value = action) (he : actionEvents token = some event)
    (ht : transitionFor deal.state event = some target) :
    planTransition deal action .allow = .ok (some event) := by
  simp [planTransition, actionToken_eq_some.2 hv, he, ht]

theorem planTransition_decides {deal : Deal} {action : String} {token : ActionToken}
    (hv : token.value = action) (he : actionEvents token = none) :
    planTransition deal action .allow = .ok none := by
  simp [planTransition, actionToken_eq_some.2 hv, he]

/-- What a request commit persists. -/
inductive RequestPlan (deal : Deal) (seq : ℕ) (prevHash : String) (req : CommitRequest) :
    CommitPlan → Prop
  | decided (mid did : String) (ho : req.decision.outcome ≠ .needsApproval) :
      RequestPlan deal seq prevHash req ⟨req.recorded signer mid did seq prevHash, deal, none⟩
  | applied (mid did id : String) (token : ActionToken) (event : DealEvent) (target : DealState)
      (ho : req.decision.outcome = .allow) (hv : token.value = req.action)
      (he : actionEvents token = some event) (ht : transitionFor deal.state event = some target) :
      RequestPlan deal seq prevHash req
        ⟨extend seq prevHash (req.recorded signer mid did seq prevHash) fun n prev =>
            req.transitionEvent signer id n prev event deal
              (applyEvent deal event target req.amountMinor),
          applyEvent deal event target req.amountMinor, none⟩
  | held (mid did id aid : String) (approval : Approval)
      (ho : req.decision.outcome = .needsApproval) (ha : req.pendingApproval aid = .ok approval) :
      RequestPlan deal seq prevHash req
        ⟨extend seq prevHash (req.recorded signer mid did seq prevHash) fun n prev =>
            req.requiredEvent signer id n prev approval.approvalId,
          { deal with openApprovals := deal.openApprovals + 1 }, some approval⟩

/-- What a boundary transition persists. -/
inductive TransitionPlan (deal : Deal) (seq : ℕ) (prevHash : String) (req : TransitionRequest)
    (target : DealState) : CommitPlan → Prop
  | applied (mid id : String) :
      TransitionPlan deal seq prevHash req target
        ⟨extend seq prevHash (req.messages signer mid seq prevHash) fun n prev =>
            req.transitionEvent signer id n prev deal
              (applyEvent deal req.event target req.amountMinor),
          applyEvent deal req.event target req.amountMinor, none⟩

/-- What a decision on an approval persists. -/
inductive ApprovalPlan (deal : Deal) (approval : Approval) (seq : ℕ) (prevHash : String)
    (req : ApprovalRequest) (record : Option AuthorityRecord) (revoked : Bool)
    (token : Option ActionToken) : CommitPlan → Prop
  | granted (aid id : String) (approvalRecord : ApprovalRecord) (action : ActionToken)
      (event : DealEvent) (target : DealState) (ho : req.operation = .granted)
      (har : req.approvalRecord = some approvalRecord) (hk : token = some action)
      (hg : grantRecheck record revoked deal action req.occurredAt = .ok (.ok event))
      (he : actionEvents action = some event) (ht : transitionFor deal.state event = some target) :
      ApprovalPlan deal approval seq prevHash req record revoked token
        ⟨extend seq prevHash
            [req.grantedEvent signer aid seq prevHash approval.requestId approvalRecord]
            fun n prev => req.transitionEvent signer id n prev approval.requestId event deal
              (applyEvent deal event target req.amountMinor).closeApproval,
          (applyEvent deal event target req.amountMinor).closeApproval,
          some (req.decide approval .granted)⟩
  | denied (id : String) (denyReason : Option String)
      (hv : req.verdict deal record revoked token = .ok (.error denyReason)) :
      ApprovalPlan deal approval seq prevHash req record revoked token
        ⟨[req.deniedEvent signer id seq prevHash approval.requestId denyReason],
          deal.closeApproval, some (req.decide approval .denied)⟩

/-- What a revocation persists. -/
inductive RevocationPlan (deal : Deal) (seq : ℕ) (prevHash : String) (req : RevocationRequest) :
    CommitPlan → Prop
  | revoked (id : String) :
      RevocationPlan deal seq prevHash req
        ⟨[req.revocationEvent signer id seq prevHash], deal, none⟩

variable {signer} {deal : Deal} {seq : ℕ} {prevHash : String} {ids : EventIds} {plan : CommitPlan}

theorem actionToken_ok {action : String} {token : ActionToken}
    (h : actionToken action = .ok token) : token.value = action := by
  unfold actionToken at h
  split at h
  · rename_i hv; cases h; exact actionToken_eq_some.1 hv
  · cases h

theorem requestPlan_of_ok {req : CommitRequest} {event : Option DealEvent}
    (hc : planTransition deal req.action req.decision.outcome = .ok event)
    (h : planCommitRequest signer deal seq prevHash req event ids = .ok plan) :
    RequestPlan signer deal seq prevHash req plan := by
  obtain ⟨mid, -, h⟩ := bind_ok.1 h
  obtain ⟨did, -, h⟩ := bind_ok.1 h
  obtain ⟨plan', hp, h⟩ := bind_ok.1 h
  unfold CommitRequest.planApproval at h
  cases transitionCheck_of_ok hc with
  | notAllowed ho =>
    cases hp
    split_ifs at h with hn
    · obtain ⟨aid, -, h⟩ := bind_ok.1 h
      obtain ⟨approval, ha, h⟩ := bind_ok.1 h
      obtain ⟨id, -, h⟩ := bind_ok.1 h
      cases h
      exact .held mid did id aid approval hn ha
    · cases h; exact .decided mid did hn
  | decisionOnly token ho hv he =>
    cases hp
    rw [if_neg (by rw [ho]; decide)] at h
    cases h; exact .decided mid did (by rw [ho]; decide)
  | applies token event target ho hv he ht =>
    obtain ⟨token', ht', hp⟩ := bind_ok.1 hp
    obtain ⟨newDeal, hn, hp⟩ := bind_ok.1 hp
    obtain ⟨id, -, hp⟩ := bind_ok.1 hp
    obtain rfl : token' = token := StrEnum.value_inj ((actionToken_ok ht').trans hv.symm)
    rw [applyAction_event he ht] at hn
    cases hn; cases hp
    rw [if_neg (by rw [ho]; decide)] at h
    cases h
    exact .applied mid did id token' event target ho hv he ht

/-- The plan of an allowed action, stamped with the first three ids. -/
theorem planCommitRequest_applies (req : CommitRequest) {token : ActionToken} {event : DealEvent}
    {target : DealState} (hs : Stampable req.recordedAt) (ho : req.decision.outcome = .allow)
    (hv : token.value = req.action) (he : actionEvents token = some event)
    (ht : transitionFor deal.state event = some target) :
    planCommitRequest signer deal seq prevHash req (some event) ids =
      .ok ⟨extend seq prevHash (req.recorded signer (ids 0) (ids 1) seq prevHash) fun n prev =>
            req.transitionEvent signer (ids 2) n prev event deal
              (applyEvent deal event target req.amountMinor),
          applyEvent deal event target req.amountMinor, none⟩ := by
  have hid : ∀ id, makeEventId req.recordedAt id = .ok id := fun id =>
    makeEventId_eq_ok.2 ⟨hs, rfl⟩
  have htoken : actionToken req.action = .ok token := by
    rw [actionToken, actionToken_eq_some.2 hv]
  simp [planCommitRequest, CommitRequest.planEvent, CommitRequest.planApproval, hid, htoken,
    applyAction_event he ht, ho, bind, Except.bind, pure, Except.pure]

/-- The plan of a decision-only action. -/
theorem planCommitRequest_decides (req : CommitRequest) (hs : Stampable req.recordedAt)
    (ho : req.decision.outcome = .allow) :
    planCommitRequest signer deal seq prevHash req none ids =
      .ok ⟨req.recorded signer (ids 0) (ids 1) seq prevHash, deal, none⟩ := by
  have hid : ∀ id, makeEventId req.recordedAt id = .ok id := fun id =>
    makeEventId_eq_ok.2 ⟨hs, rfl⟩
  simp [planCommitRequest, CommitRequest.planEvent, CommitRequest.planApproval, hid, ho, bind,
    Except.bind]

/-- The pending row of a held request has the third id. -/
theorem planCommitRequest_approvalId {req : CommitRequest} {event : Option DealEvent}
    (h : planCommitRequest signer deal seq prevHash req event ids = .ok plan) :
    ∀ approval ∈ plan.approval, approval.approvalId = ids 2 := by
  obtain ⟨mid, -, h⟩ := bind_ok.1 h
  obtain ⟨did, -, h⟩ := bind_ok.1 h
  obtain ⟨plan', hp, h⟩ := bind_ok.1 h
  have hnone : plan'.approval = none := by
    unfold CommitRequest.planEvent at hp
    cases event with
    | none => cases hp; rfl
    | some event =>
      obtain ⟨token, -, hp⟩ := bind_ok.1 hp
      obtain ⟨newDeal, -, hp⟩ := bind_ok.1 hp
      obtain ⟨id, -, hp⟩ := bind_ok.1 hp
      cases hp; rfl
  unfold CommitRequest.planApproval at h
  split_ifs at h with ho
  · obtain ⟨aid, ha, h⟩ := bind_ok.1 h
    obtain ⟨approval, hpend, h⟩ := bind_ok.1 h
    obtain ⟨id, -, h⟩ := bind_ok.1 h
    cases h
    intro approval' hm
    cases hm
    rw [(makeEventId_eq_ok.1 ha).2]
    obtain ⟨requestId, -, hpend⟩ := bind_ok.1 hpend
    obtain ⟨createdAt, -, hpend⟩ := bind_ok.1 hpend
    obtain ⟨amount, -, hpend⟩ := bind_ok.1 hpend
    cases hpend; rfl
  · cases h
    rw [hnone]
    rintro approval ⟨⟩

/-- Without an event or a pending row the deal is kept. -/
theorem planCommitRequest_newDeal {req : CommitRequest}
    (h : planCommitRequest signer deal seq prevHash req none ids = .ok plan)
    (ha : plan.approval = none) : plan.newDeal = deal := by
  obtain ⟨mid, -, h⟩ := bind_ok.1 h
  obtain ⟨did, -, h⟩ := bind_ok.1 h
  obtain ⟨plan', hp, h⟩ := bind_ok.1 h
  cases hp
  unfold CommitRequest.planApproval at h
  split_ifs at h with ho
  · obtain ⟨aid, -, h⟩ := bind_ok.1 h
    obtain ⟨approval, -, h⟩ := bind_ok.1 h
    obtain ⟨id, -, h⟩ := bind_ok.1 h
    cases h
    cases ha
  · cases h
    rfl

/-- Whatever is planned was stamped. -/
theorem planCommitRequest_stampable {req : CommitRequest} {event : Option DealEvent}
    (h : planCommitRequest signer deal seq prevHash req event ids = .ok plan) :
    Stampable req.recordedAt := by
  obtain ⟨mid, hm, -⟩ := bind_ok.1 h
  exact (makeEventId_eq_ok.1 hm).1

theorem planCommitTransition_stampable {req : TransitionRequest} {target : DealState}
    (h : planCommitTransition signer deal seq prevHash req target ids = .ok plan) :
    Stampable req.recordedAt := by
  obtain ⟨mid, hm, -⟩ := bind_ok.1 h
  exact (makeEventId_eq_ok.1 hm).1

theorem planCommitRevocation_stampable {req : RevocationRequest}
    (h : planCommitRevocation signer deal seq prevHash req ids = .ok plan) :
    Stampable req.recordedAt := by
  obtain ⟨id, hm, -⟩ := bind_ok.1 h
  exact (makeEventId_eq_ok.1 hm).1

theorem planCommitApproval_stampable {approval : Approval} {req : ApprovalRequest}
    {record : Option AuthorityRecord} {revoked : Bool} {token : Option ActionToken}
    (h : planCommitApproval signer deal approval seq prevHash req record revoked token ids =
      .ok plan) : Stampable req.recordedAt := by
  obtain ⟨verdict, -, h⟩ := bind_ok.1 h
  cases verdict with
  | error denyReason =>
    obtain ⟨id, hm, -⟩ := bind_ok.1 h
    exact (makeEventId_eq_ok.1 hm).1
  | ok grant =>
    obtain ⟨newDeal, -, h⟩ := bind_ok.1 h
    obtain ⟨aid, hm, -⟩ := bind_ok.1 h
    exact (makeEventId_eq_ok.1 hm).1

/-- The plan of a boundary transition, stamped with the first two ids. -/
theorem planCommitTransition_applies (req : TransitionRequest) {target : DealState}
    (hs : Stampable req.recordedAt) :
    planCommitTransition signer deal seq prevHash req target ids =
      .ok ⟨extend seq prevHash (req.messages signer (ids 0) seq prevHash) fun n prev =>
            req.transitionEvent signer (ids 1) n prev deal
              (applyEvent deal req.event target req.amountMinor),
          applyEvent deal req.event target req.amountMinor, none⟩ := by
  have hid : ∀ id, makeEventId req.recordedAt id = .ok id := fun id =>
    makeEventId_eq_ok.2 ⟨hs, rfl⟩
  simp [planCommitTransition, hid, bind, Except.bind, pure, Except.pure]

theorem transitionPlan_of_ok {req : TransitionRequest} {target : DealState}
    (h : planCommitTransition signer deal seq prevHash req target ids = .ok plan) :
    TransitionPlan signer deal seq prevHash req target plan := by
  obtain ⟨mid, -, h⟩ := bind_ok.1 h
  obtain ⟨id, -, h⟩ := bind_ok.1 h
  cases h
  exact .applied mid id

theorem revocationPlan_of_ok {req : RevocationRequest}
    (h : planCommitRevocation signer deal seq prevHash req ids = .ok plan) :
    RevocationPlan signer deal seq prevHash req plan := by
  obtain ⟨id, -, h⟩ := bind_ok.1 h
  cases h
  exact .revoked id

/-- A grant that passes its rechecks applies the action's event, by the
    table. -/
theorem grantRecheck_ok {record : Option AuthorityRecord} {revoked : Bool} {token : ActionToken}
    {occurredAt : String} {event : DealEvent}
    (h : grantRecheck record revoked deal token occurredAt = .ok (.ok event)) :
    ∃ r target, record = some r ∧ resolveStatus r occurredAt revoked = .ok .active ∧
      actionEvents token = some event ∧ transitionFor deal.state event = some target := by
  unfold grantRecheck at h
  cases record with
  | none => cases h
  | some r =>
    obtain ⟨status, hs, h⟩ := bind_ok.1 h
    split_ifs at h with ha
    · cases h
    · cases hf : (actionEvents token).filter fun event =>
          (transitionFor deal.state event).isSome with
      | none => simp only [hf] at h; cases h
      | some event' =>
        simp only [hf] at h
        cases h
        obtain ⟨he, ht⟩ := Option.filter_eq_some_iff.1 hf
        obtain ⟨target, ht⟩ := Option.isSome_iff_exists.1 ht
        exact ⟨r, target, rfl, not_not.1 ha ▸ hs, he, ht⟩

theorem approvalPlan_of_ok {approval : Approval} {req : ApprovalRequest}
    {record : Option AuthorityRecord} {revoked : Bool} {token : Option ActionToken}
    (h : planCommitApproval signer deal approval seq prevHash req record revoked token ids =
      .ok plan) :
    ApprovalPlan signer deal approval seq prevHash req record revoked token plan := by
  obtain ⟨verdict, hv, h⟩ := bind_ok.1 h
  cases verdict with
  | error denyReason =>
    obtain ⟨id, -, h⟩ := bind_ok.1 h
    cases h
    exact .denied id denyReason hv
  | ok grant =>
    obtain ⟨approvalRecord, action, event⟩ := grant
    obtain ⟨newDeal, hn, h⟩ := bind_ok.1 h
    obtain ⟨aid, -, h⟩ := bind_ok.1 h
    obtain ⟨id, -, h⟩ := bind_ok.1 h
    cases h
    unfold ApprovalRequest.verdict at hv
    cases ho : req.operation with
    | denied => simp only [ho] at hv; cases hv
    | granted =>
      cases har : req.approvalRecord with
      | none => simp only [ho, har] at hv; cases hv
      | some ar =>
        cases token with
        | none => simp only [ho, har] at hv; cases hv
        | some action' =>
          simp only [ho, har] at hv
          obtain ⟨recheck, hg, hv⟩ := bind_ok.1 hv
          cases recheck with
          | error reason => cases hv
          | ok event' =>
            cases hv
            obtain ⟨r, target, -, -, he, ht⟩ := grantRecheck_ok hg
            rw [applyAction_event he ht] at hn
            cases hn
            exact .granted aid id approvalRecord action event target ho har rfl hg he ht

end Mandate
