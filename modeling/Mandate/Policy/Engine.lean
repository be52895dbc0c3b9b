/-
  Pure policy evaluation: `evaluate` takes a `PolicyInput` to a
  `PolicyDecision` through thirteen ordered steps and the two content-screen
  steps 9b and 12b.

  A step returns the decision that ends the evaluation, or `none` to go on.
  Step 7 also parses the action, so the steps after it take the parsed token.
-/
import Mandate.Domain.Validation
import Mandate.Domain.Input

namespace Mandate

variable [Platform]

def supportedSchemaVersion : String := "0.1"

/-- A detected, undeclared field at or above this denies (step 9b). -/
def contentDenyBp : ℕ := 9000

/-- From this up to the deny threshold, or hostility from here on, holds
    (step 12b). -/
def contentHoldBp : ℕ := 7000

/-- `_input_digest`. -/
def inputDigest (pi : PolicyInput) : String := canonicalSha256Hex pi.toJson

/-- `_decision`. -/
def decision (pi : PolicyInput) (outcome : Outcome) (reason : ReasonCode)
    (rule explanation : String) : PolicyDecision :=
  { outcome, reasonCode := reason, explanation, matchedRule := rule
    authorityRecordId := pi.authority.record.recordId
    evaluatedAt := pi.now.text
    inputDigest := inputDigest pi }

/-- `_deny`. -/
def deny (pi : PolicyInput) (reason : ReasonCode) (rule explanation : String) : PolicyDecision :=
  decision pi .deny reason rule explanation

/-- `_needs_approval`. -/
def needsApproval (pi : PolicyInput) (reason : ReasonCode) (rule explanation : String) :
    PolicyDecision :=
  decision pi .needsApproval reason rule explanation

/-! ## The steps -/

def step01SchemaVersion (pi : PolicyInput) : Option PolicyDecision :=
  if pi.schemaVersion ≠ supportedSchemaVersion then
    deny pi .unknownSchemaVersion "step_01_schema_version"
      (s!"Unsupported schema version {pyRepr pi.schemaVersion}; " ++
        s!"engine supports {pyRepr supportedSchemaVersion}")
  else none

def step02Signature (pi : PolicyInput) : Option PolicyDecision :=
  if ¬ pi.authority.signatureValid then
    deny pi .invalidSignatureClaim "step_02_signature" "Boundary reports signature claim is invalid"
  else none

/-- Both ends of the validity interval are inside it. -/
def step03Validity (pi : PolicyInput) : Option PolicyDecision :=
  let record := pi.authority.record
  if pi.authority.status = .revoked then
    deny pi .recordRevoked "step_03_validity" "Authority record has been revoked"
  else if pi.authority.status = .expired then
    deny pi .recordExpired "step_03_validity" "Authority record has expired"
  else if pi.now.instant < record.notBefore.instant then
    deny pi .notYetValid "step_03_validity"
      s!"Evaluation time is before record not_before {record.notBefore.text}"
  else if record.expiresAt.instant < pi.now.instant then
    deny pi .recordExpired "step_03_validity"
      s!"Evaluation time is past record expires_at {record.expiresAt.text}"
  else none

def step04Delegation (pi : PolicyInput) : Option PolicyDecision :=
  (pi.authority.delegationChain.find? fun link => !link.scopeNarrowingValid).map fun link =>
    deny pi .delegationChainBroken "step_04_delegation"
      s!"Delegation link {link.parentRecordId} has invalid scope narrowing"

def step05Audience (pi : PolicyInput) : Option PolicyDecision :=
  match pi.authority.record.counterpartyId, pi.counterparty.id with
  | some audience, some id =>
    if id ≠ audience then
      deny pi .audienceMismatch "step_05_audience"
        s!"Counterparty {id} does not match record audience {audience}"
    else none
  | _, _ => none

def step06Prohibited (pi : PolicyInput) : Option PolicyDecision :=
  if pi.proposal.action ∈ pi.authority.record.prohibitedActions.map ActionToken.value then
    deny pi .actionProhibited "step_06_prohibited"
      s!"Action {pyRepr pi.proposal.action} is explicitly prohibited by the mandate"
  else none

def step07Allowed (action : ActionToken) (pi : PolicyInput) : Option PolicyDecision :=
  if action ∉ pi.authority.record.allowedActions then
    deny pi .actionNotAllowed "step_07_allowed"
      s!"Action {pyRepr pi.proposal.action} is not in the mandate's allowed_actions"
  else none

def step08Transition (action : ActionToken) (pi : PolicyInput) : Option PolicyDecision :=
  if pi.deal.state ∉ actionValidStates action then
    deny pi .invalidTransition "step_08_transition"
      s!"Action {pyRepr pi.proposal.action} is not valid from state {pi.deal.state.value}"
  else if action ∈ paymentActions ∧ pi.deal.openDisputes > 0 then
    deny pi .paymentBlockedByDispute "step_08_transition"
      s!"Payment blocked: {pi.deal.openDisputes} open dispute(s)"
  else if action ∈ paymentActions ∧ pi.deal.openApprovals > 0 then
    deny pi .paymentBlockedByOpenApproval "step_08_transition"
      s!"Payment blocked: {pi.deal.openApprovals} open approval(s)"
  else none

def step09Disclosure (pi : PolicyInput) : Option PolicyDecision :=
  (pi.proposal.disclosureFields.find? (· ∉ pi.authority.record.disclosureFields)).map fun field =>
    deny pi .disclosureNotAllowed "step_09_disclosure"
      s!"Disclosure field {pyRepr field} is not in the mandate's allow-list"

/-- The first undeclared field detected at or above a threshold. -/
def leak? (pi : PolicyInput) (threshold : ℕ) : Option DetectedField :=
  pi.content.bind fun content =>
    (content.undeclared pi.authority.record.disclosureFields).find? fun leak =>
      leak.confidenceBp.val ≥ threshold

def step09bContentDisclosure (pi : PolicyInput) : Option PolicyDecision :=
  (leak? pi contentDenyBp).map fun leak =>
    deny pi .disclosureDetected "step_09b_content_disclosure"
      (s!"Content screen detected undeclared field {pyRepr leak.field} " ++
        s!"({leak.confidenceBp.val} bp) not in the mandate's allow-list")

/-- The currency check precedes the cap comparison. -/
def step10Spend (pi : PolicyInput) : Option PolicyDecision :=
  pi.proposal.amount.bind fun amount =>
    let cap := pi.authority.record.spendCap
    let total := pi.deal.committedMinor + amount
    if pi.proposal.currency ≠ cap.currency then
      deny pi .currencyMismatch "step_10_spend"
        (s!"Proposal currency {pyRepr pi.proposal.currency} does not match " ++
          s!"spend cap currency {pyRepr cap.currency}")
    else if total > cap.amountMinor then
      needsApproval pi .spendCapExceeded "step_10_spend"
        s!"Cumulative spend {total} exceeds cap {cap.amountMinor} {cap.currency}"
    else none

def step11Limits (action : ActionToken) (pi : PolicyInput) : Option PolicyDecision :=
  if action ∈ negotiationActions ∧
      pi.deal.negotiatedRounds ≥ pi.authority.record.maxNegotiationRounds then
    deny pi .negotiationLimitReached "step_11_limits"
      (s!"Negotiation rounds {pi.deal.negotiatedRounds} reached cap " ++
        s!"{pi.authority.record.maxNegotiationRounds}")
  else none

def step12Approval (action : ActionToken) (pi : PolicyInput) : Option PolicyDecision :=
  if action ∈ pi.authority.record.requiresHumanApprovalFor then
    needsApproval pi .approvalRequired "step_12_approval"
      s!"Action {pyRepr pi.proposal.action} requires human approval per the mandate"
  else none

/-- Whatever the screen could not vouch for goes to a person. -/
def step12bContentHold (pi : PolicyInput) : Option PolicyDecision :=
  pi.content.bind fun content =>
    if ¬ content.available then
      needsApproval pi .contentScreenUnavailable "step_12b_content_hold"
        "Content screen was unavailable; a person must review the content"
    else match leak? pi contentHoldBp with
      | some leak =>
        needsApproval pi .contentReviewRequired "step_12b_content_hold"
          (s!"Content screen suspects undeclared field {pyRepr leak.field} " ++
            s!"({leak.confidenceBp.val} bp); a person must review the content")
      | none =>
        if content.hostilityBp.val ≥ contentHoldBp then
          needsApproval pi .hostileContentSuspected "step_12b_content_hold"
            (s!"Content screen suspects hostile content ({content.hostilityBp.val} bp); " ++
              "a person must review it")
        else none

/-! ## The evaluation -/

/-- The steps before the action is parsed. -/
def stepsBeforeAction : List (PolicyInput → Option PolicyDecision) :=
  [step01SchemaVersion, step02Signature, step03Validity, step04Delegation, step05Audience,
    step06Prohibited]

/-- The steps on a known action. -/
def stepsOnAction (action : ActionToken) : List (PolicyInput → Option PolicyDecision) :=
  [step07Allowed action, step08Transition action, step09Disclosure, step09bContentDisclosure,
    step10Spend, step11Limits action, step12Approval action, step12bContentHold]

/-- The decision of the first step that ends the evaluation. -/
def firstDecision (steps : List (PolicyInput → Option PolicyDecision)) (pi : PolicyInput) :
    Option PolicyDecision :=
  steps.findSome? fun step => step pi

/-- Evaluate a policy input. -/
def evaluate (pi : PolicyInput) : PolicyDecision :=
  match firstDecision stepsBeforeAction pi with
  | some d => d
  | none =>
    match (StrEnum.ofValue? pi.proposal.action : Option ActionToken) with
    | none =>
      deny pi .unknownAction "step_07_allowed"
        s!"Action {pyRepr pi.proposal.action} is not in the closed vocabulary"
    | some action =>
      match firstDecision (stepsOnAction action) pi with
      | some d => d
      | none => decision pi .allow .ok "step_13_allow" "All checks passed"

end Mandate
