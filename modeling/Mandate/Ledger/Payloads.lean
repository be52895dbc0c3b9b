/-
  Event payload builders, and the typed views of the payloads they build.

  A payload is a JSON object.  `Event.decision?`, `Event.transition?` and
  `Event.approval?` read the members the ledger's laws are about back out of
  an event; on a built payload they return what was put in.
-/
import Mandate.Crypto.Signing
import Mandate.Domain.Events

namespace Mandate

variable [Platform]

abbrev Payload := List (String × Json)

/-- What was screened: the digest of the content and the claims about it. -/
structure ScreenedContent where
  digest : String
  claims : ContentClaims

/-- The payload of an agent's content, keyed by request and action. -/
def outboundMessagePayload (content : ScreenedContent) (requestId action : String)
    (declaredFields : List String) : Payload :=
  [("direction", .str "outbound"), ("content_sha256", .str content.digest),
   ("screen", content.claims.toJson), ("request_id", .str requestId), ("action", .str action),
   ("declared_fields", .arr (declaredFields.map .str))]

/-- The payload of a counterparty note, keyed by command and event. -/
def inboundMessagePayload (content : ScreenedContent) (commandId event : String) : Payload :=
  [("direction", .str "inbound"), ("content_sha256", .str content.digest),
   ("screen", content.claims.toJson), ("command_id", .str commandId), ("event", .str event)]

/-- The full decision plus request references. -/
def decisionPayload (requestId action : String) (decision : PolicyDecision)
    (amountMinor : Option ℤ) (idempotencyKey proposalDigest : String) : Payload :=
  [("request_id", .str requestId), ("action", .str action),
   ("outcome", .str decision.outcome.value), ("reason_code", .str decision.reasonCode.value),
   ("explanation", .str decision.explanation), ("matched_rule", .str decision.matchedRule),
   ("evaluated_at", .str decision.evaluatedAt), ("input_digest", .str decision.inputDigest),
   ("amount_minor", optInt amountMinor), ("idempotency_key", .str idempotencyKey),
   ("proposal_digest", .str proposalDigest)]

/-- Who caused a transition: a request with its action, or a command with the
    counterparty's note. -/
inductive Cause where
  | request (requestId action : String)
  | command (commandId note : String)

/-- Of the note only the digest is kept. -/
def Cause.fields : Cause → Payload
  | request requestId action => [("request_id", .str requestId), ("action", .str action)]
  | command commandId note => ("command_id", .str commandId) ::
      if note = "" then [] else [("note_sha256", .str (sha256Text note))]

def transitionPayload (cause : Cause) (event : DealEvent) (deal newDeal : Deal)
    (amountMinor : Option ℤ) : Payload :=
  [("event", .str event.value), ("from_state", .str deal.state.value),
   ("to_state", .str newDeal.state.value), ("amount_minor", optInt amountMinor)] ++ cause.fields

inductive ApprovalOperation where
  | required | granted | denied
deriving DecidableEq, Repr

def ApprovalOperation.value : ApprovalOperation → String
  | required => "required"
  | granted => "granted"
  | denied => "denied"

instance : StrEnum ApprovalOperation where
  all := [.required, .granted, .denied]
  value := ApprovalOperation.value
  mem_all o := by cases o <;> decide
  nodup := by decide

/-- The members every approval payload starts with. -/
def approvalHead (operation : ApprovalOperation) (requestId action : String)
    (amountMinor : Option ℤ) : Payload :=
  [("operation", .str operation.value), ("request_id", .str requestId), ("action", .str action),
   ("amount_minor", optInt amountMinor)]

def approvalRequiredPayload (requestId action : String) (amountMinor : Option ℤ)
    (approvalId currency authorityRecordId reasonCode : String) : Payload :=
  approvalHead .required requestId action amountMinor ++
    [("approval_id", .str approvalId), ("currency", .str currency),
     ("authority_record_id", .str authorityRecordId), ("reason_code", .str reasonCode)]

/-- A grant carries the signed record. -/
def approvalGrantedPayload (requestId action : String) (amountMinor : Option ℤ)
    (commandId decidedBy : String) (approvalRecord : ApprovalRecord) : Payload :=
  approvalHead .granted requestId action amountMinor ++
    [("command_id", .str commandId), ("decided_by", .str decidedBy),
     ("approval_record", approvalRecord.toJson)]

def approvalDeniedPayload (requestId action : String) (amountMinor : Option ℤ)
    (commandId decidedBy : String) (denyReason : Option String) : Payload :=
  approvalHead .denied requestId action amountMinor ++
    ("command_id", .str commandId) :: ("decided_by", .str decidedBy) ::
      match denyReason with
      | some reason => [("deny_reason", .str reason)]
      | none => []

def revocationPayload (revocation : Revocation) : Payload := [("revocation", revocation.toJson)]

/-! ## Typed views -/

/-- The string member `key` of the payload. -/
def Event.str? (e : Event) (key : String) : Option String :=
  match e.field key with
  | some (.str s) => some s
  | _ => none

/-- The integer member `key` of the payload. -/
def Event.int? (e : Event) (key : String) : Option ℤ :=
  match e.field key with
  | some (.int i) => some i
  | _ => none

/-- What a `policy_decision` event says. -/
structure DecisionEntry where
  requestId : String
  action : String
  outcome : Outcome
  reasonCode : ReasonCode
  inputDigest : String
  amountMinor : Option ℤ
  idempotencyKey : String
  proposalDigest : String
deriving DecidableEq

/-- What a `state_transition` event says; `requestId` is absent on the
    boundary path. -/
structure TransitionEntry where
  event : DealEvent
  fromState : DealState
  toState : DealState
  amountMinor : Option ℤ
  requestId : Option String
deriving DecidableEq

/-- What an `approval` event says. -/
structure ApprovalEntry where
  operation : ApprovalOperation
  requestId : String
  action : String
  amountMinor : Option ℤ
deriving DecidableEq

def Event.decision? (e : Event) : Option DecisionEntry :=
  if e.eventType = .policyDecision then do
    return {
      requestId := ← e.str? "request_id"
      action := ← e.str? "action"
      outcome := ← StrEnum.ofValue? (← e.str? "outcome")
      reasonCode := ← StrEnum.ofValue? (← e.str? "reason_code")
      inputDigest := ← e.str? "input_digest"
      amountMinor := e.int? "amount_minor"
      idempotencyKey := ← e.str? "idempotency_key"
      proposalDigest := ← e.str? "proposal_digest" }
  else none

def Event.transition? (e : Event) : Option TransitionEntry :=
  if e.eventType = .stateTransition then do
    return {
      event := ← StrEnum.ofValue? (← e.str? "event")
      fromState := ← StrEnum.ofValue? (← e.str? "from_state")
      toState := ← StrEnum.ofValue? (← e.str? "to_state")
      amountMinor := e.int? "amount_minor"
      requestId := e.str? "request_id" }
  else none

def Event.approval? (e : Event) : Option ApprovalEntry :=
  if e.eventType = .approval then do
    return {
      operation := ← StrEnum.ofValue? (← e.str? "operation")
      requestId := ← e.str? "request_id"
      action := ← e.str? "action"
      amountMinor := e.int? "amount_minor" }
  else none

end Mandate
