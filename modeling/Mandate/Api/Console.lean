/-
  The operator console: its routes over the ledger store.

  The engine decides and the store commits; a route assembles the request from
  the form, the stored deal and its mandate, and shows the result.  A request
  is served in three parts (`Server.run`): the middleware, `require_auth`, and
  the rest.  Other requests may come between the parts, and none inside one.
-/
import Mandate.Api.Sessions

namespace Mandate

namespace Console

/-- What the last part of a request takes from the entropy source and the
    clocks. -/
structure Draws where
  session : SessionDraw
  nowIso : String
  time : ℤ
  newUlid : ℕ → String
  eventIds : EventIds

/-! ## Deals -/

/-- `register_deal`: a failure leaves what was written before it. -/
def registerDeal (c : Console) (dealId : String) (record : AuthorityRecord) (createdAt : String) :
    Except PyError Unit × Console :=
  match c.store.createDeal (.fresh dealId) createdAt with
  | (.error e, s) => (.error e, { c with store := s })
  | (.ok (), s) =>
    match (s.putRecord record).linkDealRecord dealId record.recordId with
    | (.error e, s) => (.error e, { c with store := s })
    | (.ok (), s) =>
      (.ok (), { c with
        store := s
        dealIds := c.dealIds ++ [dealId]
        dealRecords := c.dealRecords.set dealId record.recordId })

/-! ## Pages -/

/-- `_mandate`. -/
def mandate (c : Console) (dealId : String) : Except RouteError (AuthorityRecord × Deal) :=
  match c.dealRecords.get? dealId with
  | none => .error (.http 404 "no mandate for this deal")
  | some recordId =>
    match c.store.records.get? recordId, c.store.deals.get? dealId with
    | some record, some deal => .ok (record, deal)
    | _, _ => .error (.http 404 "deal or mandate not found")

/-- `_is_revoked`: any stored revocation counts. -/
def isRevoked (c : Console) (dealId : String) : Bool :=
  match c.dealRecords.get? dealId with
  | none => false
  | some recordId => !(c.store.listRevocations recordId).isEmpty

/-- The state of a deal's mandate as the pages show it. -/
def mandateState (c : Console) (dealId now : String) : Except PyError String :=
  match (c.dealRecords.get? dealId).bind c.store.records.get? with
  | none => .ok "?"
  | some record => (resolveStatus record now (c.isRevoked dealId)).map RecordStatus.value

def pending (c : Console) (dealId : String) : List Approval :=
  (c.store.approvalsFor dealId).filter fun a => a.status = .pending

/-- The state of the stored deal as the pages show it. -/
def currentState (c : Console) (dealId : String) : String :=
  ((c.store.deals.get? dealId).map fun deal => deal.state.value).getD "?"

def home (c : Console) (now : String) : Except PyError Page := do
  let rows ← c.dealIds.filterMapM fun dealId =>
    match c.store.deals.get? dealId with
    | none => .ok none
    | some deal => do
      return some
        { id := dealId
          state := deal.state.value
          committedMinor := deal.committedMinor
          mandateState := ← c.mandateState dealId now
          openApprovals := (c.pending dealId).length }
  return .home rows

def dealDetail (c : Console) (dealId now : String) : Except RouteError Page :=
  match c.store.deals.get? dealId with
  | none => .error (.http 404 "deal not found")
  | some deal =>
    match c.mandateState dealId now with
    | .error e => .error (.python e)
    | .ok mandateState =>
      let rows := (c.pending dealId).map fun a =>
        (⟨a, (c.screenClaims.get? a.approvalId).map screenBadge⟩ : ApprovalRow)
      .ok (.deal dealId deal mandateState (byUrgency rows)
        ((StrEnum.all (α := DealEvent)).map DealEvent.value) c.screen.screen.isSome)

def timeline (c : Console) (dealId : String) : Except RouteError Page :=
  match c.store.deals.get? dealId with
  | none => .error (.http 404 "deal not found")
  | some deal => .ok (.timeline dealId deal.state.value ((c.store.eventsFor dealId).map fun e =>
      { seq := e.sequenceNumber
        type := e.eventType.value
        actor := e.actorKind.value
        actorId := e.actorId
        occurredAt := e.occurredAt
        payload := e.payload }))

def proposeForm (c : Console) (dealId : String) : Except RouteError Page := do
  let (record, deal) ← c.mandate dealId
  return .propose dealId deal.state.value record.spendCap.currency
    ((StrEnum.all (α := ActionToken)).map ActionToken.value) record.disclosureFields
    c.screen.screen.isSome none

/-- The fields of the proposal form. -/
structure ProposalFields where
  action : ActionToken
  amountMinor : Option ℕ
  content : String
  declared : List String

/-- The page after a processed proposal. -/
def decisionPage (c : Console) (dealId : String) (fields : ProposalFields) (currency : String)
    (result : ProcessResult) : Except PyError Page :=
  let currentState := c.currentState dealId
  if result.verdict.outcome ≠ .pass ∧ result.verdict.outcome ≠ .idempotentHit then
    .ok (.decision {
      dealId, action := fields.action.value, outcome := "Blocked by the replay gate"
      sentence := result.verdict.detail, currentState })
  else if result.verdict.outcome = .idempotentHit then
    .ok (.decision {
      dealId, action := fields.action.value, amountMinor := fields.amountMinor
      currency := some currency, outcome := "Already processed"
      sentence := "This exact request was already handled; the original decision stands."
      originalOutcome := some ((result.decision.map fun d => outcomeLabel d.outcome).getD "?")
      originalReason := some ((result.decision.map fun d => reasonSentence d.reasonCode).getD "?")
      currentState })
  else match result.decision with
    | none => .error .assertionError
    | some decision => .ok (.decision {
        dealId, action := fields.action.value, amountMinor := fields.amountMinor
        currency := some currency, outcome := outcomeLabel decision.outcome
        sentence := reasonSentence decision.reasonCode, currentState })

/-- `_remember_screen_badge`. -/
def rememberScreenBadge (c : Console) (dealId requestId : String)
    (screened : Option ScreenedContent) : Console :=
  match screened with
  | none => c
  | some screened =>
    let opened := (c.store.approvalsFor dealId).filter fun a => a.requestId = requestId
    { c with screenClaims :=
        opened.foldl (fun claims a => claims.set a.approvalId screened.claims) c.screenClaims }

/-- The denial of an approval, with the reason of the form. -/
def denyRequest (c : Console) (x : Exchange) (approval : Approval) (dealId approvalId : String)
    (d : Draws) : ApprovalRequest :=
  { dealId
    approvalId
    commandId := d.newUlid 0
    operation := .denied
    actorKind := .principal
    actorId := c.operatorId
    authorityRecordId := approval.authorityRecordId
    action := approval.action
    amountMinor := approval.amountMinor
    occurredAt := d.nowIso
    recordedAt := d.nowIso
    decidedBy := c.operatorId
    approvalRecord := none
    denyReason :=
      some (if x.field "deny_reason" = "" then "Denied by operator" else x.field "deny_reason") }

section
variable [Platform]

/-! ## Minting -/

/-- The terms of a mandate, with the defaults of `make_signed_record`. -/
structure MandateTerms where
  agentId : String
  principalId : String
  purpose : String
  allowedActions : List ActionToken
  spendCap : SpendCap
  maxNegotiationRounds : ℤ
  expiresAt : String
  prohibitedActions : List ActionToken := []
  disclosureFields : List String := []
  requiresHumanApprovalFor : List ActionToken := []
  counterpartyId : Option String := none
  acceptanceWindowHours : ℤ := 48
  silentAcceptance : Bool := false

/-- Build and sign an active top-level mandate with the gateway key. -/
def makeSignedRecord (c : Console) (now : String) (terms : MandateTerms)
    (newUlid : ℕ → String) : Except PyError AuthorityRecord := do
  let issuedAt ← timestampField now
  let expiresAt ← timestampField terms.expiresAt
  let unsigned : AuthorityRecord :=
    { schemaVersion := "0.1"
      recordId := newUlid 0
      principalId := terms.principalId
      agentId := terms.agentId
      counterpartyId := terms.counterpartyId
      purpose := terms.purpose
      allowedActions := terms.allowedActions
      prohibitedActions := terms.prohibitedActions
      spendCap := terms.spendCap
      maxNegotiationRounds := terms.maxNegotiationRounds
      acceptanceWindowHours := terms.acceptanceWindowHours
      silentAcceptance := terms.silentAcceptance
      disclosureFields := terms.disclosureFields
      requiresHumanApprovalFor := terms.requiresHumanApprovalFor
      issuedAt
      notBefore := issuedAt
      expiresAt
      parentRecordId := none
      status := .active
      nonce := newUlid 1
      signature := ⟨algorithm, c.signer.keyId, ""⟩ }
  return { unsigned with
    signature := ⟨algorithm, c.signer.keyId, c.signer.signBytes (recordSigningPayload unsigned)⟩ }

def makeSignedRevocation (c : Console) (recordId now : String) (newUlid : ℕ → String) :
    Except PyError Revocation := do
  let unsigned : Revocation :=
    { schemaVersion := "0.1"
      revocationId := newUlid 0
      recordId
      revokedAt := ← timestampField now
      signature := ⟨algorithm, c.signer.keyId, ""⟩ }
  return { unsigned with
    signature := ⟨algorithm, c.signer.keyId,
      c.signer.signBytes (revocationSigningPayload unsigned)⟩ }

/-- The mandate of a new deal: every action, 10,000 dollars, and a person's
    sign-off to capture a payment. -/
def makeDefaultRecord (c : Console) (now purpose : String) (newUlid : ℕ → String) :
    Except PyError AuthorityRecord :=
  c.makeSignedRecord now
    { agentId := newUlid 0
      principalId := newUlid 1
      purpose
      allowedActions := StrEnum.all
      spendCap := ⟨"USD", 1000000⟩
      maxNegotiationRounds := 10
      expiresAt := "2027-01-01T00:00:00+00:00"
      requiresHumanApprovalFor := [.capturePayment] }
    fun n => newUlid (n + 2)

/-! ## Operator actions -/

/-- The transition that a boundary event asks for. -/
def boundaryRequest (c : Console) (x : Exchange) (dealId : String) (event : DealEvent)
    (d : Draws) : TransitionRequest :=
  { dealId
    commandId := d.newUlid 0
    event
    actorKind := .system
    actorId := c.operatorId
    authorityRecordId := none
    amountMinor := none
    occurredAt := d.nowIso
    recordedAt := d.nowIso
    note := x.field "note"
    content := screenContent c.screen (x.field "note") }

/-- Record an external event. -/
def boundaryEvent (c : Console) (x : Exchange) (dealId : String) (d : Draws) :
    Except RouteError Page × Console :=
  match c.mandate dealId with
  | .error e => (.error e, c)
  | .ok _ =>
    match (StrEnum.ofValue? (x.field "event") : Option DealEvent) with
    | none => (.error (.http 400 ("unknown event " ++ pyRepr (x.field "event"))), c)
    | some event =>
      match c.store.commitTransition (c.boundaryRequest x dealId event d) c.signer d.eventIds with
      | (.error e, s) => (.error (.python e), { c with store := s })
      | (.ok result, s) =>
        let c := { c with store := s }
        (.ok (.decision {
          dealId
          action := s!"boundary: {event.value}"
          outcome := if result.outcome = .committed then "Recorded" else "Not applied"
          sentence := result.detail
          currentState := c.currentState dealId }), c)

/-- The grant of an approval: the stored row's own fields, and a record minted
    from them. -/
def grantRequest (c : Console) (approval : Approval) (dealId approvalId : String) (d : Draws) :
    Except RouteError ApprovalRequest :=
  match timestampField d.nowIso, validateAmountMinor approval.amountMinor with
  | .error e, _ | _, .error e => .error (.python e)
  | .ok issuedAt, .ok amountMinor =>
    let approvalRecord := makeApprovalRecord (d.newUlid 0) dealId approval.requestId
      approval.authorityRecordId approval.action amountMinor approval.currency
      approval.proposalDigest issuedAt c.signer
    let check := verifyApproval approvalRecord c.signer.publicKey (some c.signer.keyId)
    if !check.valid then
      .error (.http 500 s!"approval record failed self-verification: {check.reason}")
    else .ok {
      dealId
      approvalId
      commandId := d.newUlid 1
      operation := .granted
      actorKind := .principal
      actorId := c.operatorId
      authorityRecordId := approval.authorityRecordId
      action := approval.action
      amountMinor := approval.amountMinor
      occurredAt := d.nowIso
      recordedAt := d.nowIso
      decidedBy := c.operatorId
      approvalRecord := some approvalRecord
      denyReason := none }

/-- The decision that the form asks for. -/
def approvalRequest (c : Console) (x : Exchange) (dealId approvalId : String) (d : Draws) :
    Except RouteError ApprovalRequest :=
  match c.mandate dealId, (c.store.approvals.get? approvalId).filter (·.dealId = dealId) with
  | .error e, _ => .error e
  | .ok _, none => .error (.http 404 "approval not found")
  | .ok _, some approval =>
    if x.field "operation" = "granted" then c.grantRequest approval dealId approvalId d
    else if x.field "operation" = "denied" then .ok (c.denyRequest x approval dealId approvalId d)
    else .error (.http 400 "operation must be granted or denied")

/-- Grant or deny an approval of the deal. -/
def decideApproval (c : Console) (x : Exchange) (dealId approvalId : String) (d : Draws) :
    Except RouteError Response × Console :=
  match c.approvalRequest x dealId approvalId d with
  | .error e => (.error e, c)
  | .ok req =>
    match c.store.commitApproval req c.signer d.eventIds with
    | (.error e, s) => (.error (.python e), { c with store := s })
    | (.ok _, s) => (.ok (.redirect s!"/deals/{dealId}"), { c with store := s })

def revocationRequest (c : Console) (dealId : String) (d : Draws) :
    Except RouteError RevocationRequest := do
  let (record, _) ← c.mandate dealId
  match c.makeSignedRevocation record.recordId d.nowIso d.newUlid with
  | .error e => throw (.python e)
  | .ok revocation => return {
      dealId
      revocation
      commandId := d.newUlid 1
      actorKind := .principal
      actorId := c.operatorId
      occurredAt := d.nowIso
      recordedAt := d.nowIso }

/-- Sign and store a revocation of the deal's mandate. -/
def revoke (c : Console) (dealId : String) (d : Draws) : Except RouteError Response × Console :=
  match c.revocationRequest dealId d with
  | .error e => (.error e, c)
  | .ok req =>
    match c.store.commitRevocation req c.signer d.eventIds with
    | (.error e, s) => (.error (.python e), { c with store := s })
    | (.ok _, s) => (.ok (.redirect s!"/deals/{dealId}"), { c with store := s })

/-- A deal with a default mandate. -/
def newDeal (c : Console) (d : Draws) : Except RouteError Response × Console :=
  let dealId := d.newUlid 0
  match c.makeDefaultRecord d.nowIso "Operator-created mandate" fun n => d.newUlid (n + 1) with
  | .error e => (.error (.python e), c)
  | .ok record =>
    match c.registerDeal dealId record d.nowIso with
    | (.error e, c) => (.error (.python e), c)
    | (.ok (), c) => (.ok (.redirect s!"/deals/{dealId}"), c)

/-! ## A proposed action -/

/-- The policy input of a proposal. -/
def proposalInput (c : Console) (fields : ProposalFields) (dealId : String)
    (record : AuthorityRecord) (authority : AuthorityClaim) (deal : Deal) (now : Timestamp)
    (newUlid : ℕ → String) : PolicyInput :=
  let screened := screenContent c.screen fields.content
  { schemaVersion := "0.1"
    requestId := newUlid 0
    now
    actor := ⟨.agent, record.agentId⟩
    authority
    counterparty := ⟨record.counterpartyId⟩
    deal
    proposal := {
      action := fields.action.value
      dealId
      amountMinor := fields.amountMinor
      currency := record.spendCap.currency
      disclosureFields := fields.declared
      idempotencyKey := newUlid 1
      contentSha256 := screened.map ScreenedContent.digest }
    content := screened.map ScreenedContent.claims
    contentNeedsDigest := by simp }

variable [PyDecimal.CharForms]

/-- The non-blank parts between the commas, without white space around them. -/
def declaredFields (raw : String) : List String :=
  ((raw.toList.splitOn ',').map fun part => String.ofList (PyDecimal.strip part)).filter (· ≠ "")

def proposalFields (x : Exchange) : Except RouteError ProposalFields :=
  match (StrEnum.ofValue? (x.field "action") : Option ActionToken) with
  | none => .error (.http 400 ("unknown action " ++ pyRepr (x.field "action")))
  | some action =>
    match parseMinor ((some (x.field "amount_dollars")).filter (· ≠ "")) with
    | .error (.valueError msg) => .error (.http 400 msg)
    | .error e => .error (.amount e)
    | .ok amount =>
      match validateAmountMinor amount with
      | .error e => .error (.python e)
      | .ok amountMinor =>
        .ok ⟨action, amountMinor, x.field "content", declaredFields (x.field "disclosure_fields")⟩

/-- Claim, evaluate and commit one proposal, and show the outcome. -/
def propose (c : Console) (x : Exchange) (dealId : String) (d : Draws) :
    Except RouteError Page × Console :=
  match c.mandate dealId, proposalFields x with
  | .error e, _ | .ok _, .error e => (.error e, c)
  | .ok (record, deal), .ok fields =>
    match buildClaim c.store c.signer record d.nowIso, timestampField d.nowIso with
    | .error e, _ | _, .error e => (.error (.python e), c)
    | .ok claim, .ok now =>
      let pi := c.proposalInput fields dealId record claim deal now d.newUlid
      match processRequest c.store pi c.signer d.nowIso d.eventIds with
      | (.error e, s) => (.error (.python e), { c with store := s })
      | (.ok result, s) =>
        let c := { c with store := s }.rememberScreenBadge dealId pi.requestId
          (screenContent c.screen fields.content)
        ((c.decisionPage dealId fields record.spendCap.currency result).mapError .python, c)

/-! ## Serving a request -/

/-- What a route ends in: a response or an exception, the token of
    `request.state`, and the state. -/
structure Routed where
  result : Except RouteError Response
  token : String
  console : Console

omit [Platform] [PyDecimal.CharForms] in
/-- A page, or an exception, after which the session is the same. -/
def shows (c : Console) (x : Exchange) (result : Except RouteError Page) : Routed :=
  ⟨result.map (c.render x), x.mandateToken, c⟩

variable [CsrfSerializer]

omit [Platform] [PyDecimal.CharForms] in
def loginPost (c : Console) (x : Exchange) (d : Draws) : Routed :=
  match c.verifyCsrf x (x.field "csrf_token") d.time with
  | .error e => ⟨.error (.python e), x.mandateToken, c⟩
  | .ok false => ⟨.error (.http 400 "csrf token mismatch"), x.mandateToken, c⟩
  | .ok true =>
    match c.checkPassword (x.field "password") with
    | .error e => ⟨.error (.python e), x.mandateToken, c⟩
    | .ok false =>
      ⟨.ok { c.render x (.login (some "Wrong password.")) with status := 401 }, x.mandateToken, c⟩
    | .ok true =>
      match c.authenticateSession x d.session with
      | none => ⟨.error (.http 500 "no session to authenticate"), x.mandateToken, c⟩
      | some (x, c) => ⟨.ok (.redirect "/"), x.mandateToken, c⟩

omit [Platform] [PyDecimal.CharForms] [CsrfSerializer] in
def logout (c : Console) (x : Exchange) : Routed :=
  ⟨.ok { Response.redirect "/login" with deletesCookie := true }, x.mandateToken,
    c.destroySession x⟩

/-- The body of a route. -/
def route (c : Console) (x : Exchange) (d : Draws) : Routed :=
  match x.request.endpoint with
  | .loginGet => c.shows x (.ok (.login none))
  | .loginPost => c.loginPost x d
  | .logout => c.logout x
  | .home => c.shows x ((c.home d.nowIso).mapError .python)
  | .newDeal => let (r, c) := c.newDeal d; ⟨r, x.mandateToken, c⟩
  | .dealDetail dealId => c.shows x (c.dealDetail dealId d.nowIso)
  | .timeline dealId => c.shows x (c.timeline dealId)
  | .proposeForm dealId => c.shows x (c.proposeForm dealId)
  | .propose dealId => let (r, c) := c.propose x dealId d; c.shows x r
  | .boundaryEvent dealId => let (r, c) := c.boundaryEvent x dealId d; c.shows x r
  | .decideApproval dealId approvalId =>
    let (r, c) := c.decideApproval x dealId approvalId d; ⟨r, x.mandateToken, c⟩
  | .revoke dealId => let (r, c) := c.revoke dealId d; ⟨r, x.mandateToken, c⟩
  | .framework status text => ⟨.ok { status, body := .detail text }, x.mandateToken, c⟩

omit [Platform] [PyDecimal.CharForms] [CsrfSerializer] in
/-- The response that the middleware sends.  What nothing handles goes past
    it, so no cookie is set. -/
def Routed.answer (r : Routed) : HttpResponse :=
  match r.result with
  | .ok response =>
    ⟨response, (if response.deletesCookie then [.delete] else []) ++ [.token r.token]⟩
  | .error (.http statusCode detail location) =>
    ⟨{ status := statusCode, body := .detail detail, location }, [.token r.token]⟩
  | .error (.python _) | .error (.amount _) => ⟨{ status := 500, body := .serverError }, []⟩

/-- The part of a request after `require_auth`. -/
def finish (c : Console) (x : Exchange) (d : Draws) : HttpResponse × Console :=
  let r := if x.request.endpoint.operates then
      match c.requireCsrf x d.time with
      | .error e => ⟨.error e, x.mandateToken, c⟩
      | .ok () => c.route x d
    else c.route x d
  (r.answer, r.console)

end

end Console

/-! ## The server -/

/-- A request in flight, and whether its login was checked. -/
structure Pending where
  exchange : Exchange
  authorised : Bool

/-- The console with its requests in flight, numbered as they arrive. -/
structure Server where
  console : Console
  arrivals : ℕ
  inFlight : Dict ℕ Pending

/-- One uninterrupted part of serving a request. -/
inductive ServerPart where
  | arrive (request : HttpRequest) (d : Console.SessionDraw)
  | authorise (n : ℕ)
  | finish (n : ℕ) (d : Console.Draws)

variable [Platform] [PyDecimal.CharForms] [CsrfSerializer]

/-- Run one part, if it is due; the last part of a request answers it. -/
def Server.run (s : Server) : ServerPart → Option (Option HttpResponse × Server)
  | .arrive request d =>
    let (x, console) := s.console.sessionMiddleware request d
    let inFlight := s.inFlight.set s.arrivals ⟨x, !request.endpoint.guarded⟩
    some (none, { console, arrivals := s.arrivals + 1, inFlight })
  | .authorise n =>
    match (s.inFlight.get? n).filter (!·.authorised) with
    | none => none
    | some p =>
      match s.console.requireAuth p.exchange with
      | .ok _ => some (none, { s with inFlight := s.inFlight.set n { p with authorised := true } })
      | .error e =>
        let refused : Console.Routed := ⟨.error e, p.exchange.mandateToken, s.console⟩
        some (some refused.answer, { s with inFlight := s.inFlight.remove n })
  | .finish n d =>
    match (s.inFlight.get? n).filter Pending.authorised with
    | none => none
    | some p =>
      let (response, console) := s.console.finish p.exchange d
      some (some response, { s with console, inFlight := s.inFlight.remove n })

/-- A request whose login is checked goes on, or is answered with the refusal. -/
theorem Server.run_authorise {s s' : Server} {n : ℕ} {r : Option HttpResponse}
    (h : s.run (.authorise n) = some (r, s')) :
    ∃ p, s.inFlight.get? n = some p ∧
      ((∃ session, s.console.requireAuth p.exchange = .ok session ∧ r = none ∧
        s' = { s with inFlight := s.inFlight.set n { p with authorised := true } }) ∨
      ∃ e, s.console.requireAuth p.exchange = .error e ∧
        r = some (Console.Routed.mk (.error e) p.exchange.mandateToken s.console).answer ∧
        s' = { s with inFlight := s.inFlight.remove n }) := by
  unfold Server.run at h
  dsimp only at h
  cases hp : (s.inFlight.get? n).filter fun p => !p.authorised with
  | none => simp only [hp] at h; cases h
  | some p =>
    simp only [hp] at h
    refine ⟨p, (Option.filter_eq_some_iff.1 hp).1, ?_⟩
    cases hr : s.console.requireAuth p.exchange with
    | ok session =>
      simp only [hr] at h
      cases h
      exact .inl ⟨session, rfl, rfl, rfl⟩
    | error e =>
      simp only [hr] at h
      cases h
      exact .inr ⟨e, rfl, rfl, rfl⟩

theorem Server.run_finish {s s' : Server} {n : ℕ} {d : Console.Draws} {r : Option HttpResponse}
    (h : s.run (.finish n d) = some (r, s')) :
    ∃ p, s.inFlight.get? n = some p ∧ p.authorised = true ∧
      r = some (s.console.finish p.exchange d).1 ∧
      s' = { s with
        console := (s.console.finish p.exchange d).2, inFlight := s.inFlight.remove n } := by
  unfold Server.run at h
  dsimp only at h
  cases hp : (s.inFlight.get? n).filter Pending.authorised with
  | none => simp only [hp] at h; cases h
  | some p =>
    simp only [hp] at h
    cases h
    obtain ⟨hp, ha⟩ := Option.filter_eq_some_iff.1 hp
    exact ⟨p, hp, ha, rfl, rfl⟩

end Mandate
