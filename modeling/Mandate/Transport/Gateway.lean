/-
  The wire gateway: one validated envelope through the verify-first pipeline.

  `screenMessage` is everything before the dispatch: it changes nothing and answers,
  or passes the payload on.  A handler then works on the store, and its answer
  is kept for redeliveries.
-/
import Mandate.Application.Claims
import Mandate.Transport.Envelope

namespace Mandate

section
variable [Platform]

/-! ## Screening -/

/-- The content screen, if one is configured: the claims it makes about a text,
    and the digest of its question set. -/
structure ContentScreen where
  screen : Option (String → ContentClaims)
  questionSetSha256 : String

/-- Hash the content and ask the screen; content that nobody screens is held. -/
def screenContent (s : ContentScreen) (content : String) : Option ScreenedContent :=
  if content = "" then none
  else some {
    digest := sha256Text content
    claims := match s.screen with
      | some screen => screen content
      | none =>
        { screener := "none:unconfigured", questionSetSha256 := s.questionSetSha256
          contentChars := content.length, available := false
          detected := [], detectedUnique := nothingDetected_nodup } }

/-! ## The state -/

/-- The status and body of an answer. -/
structure Answer where
  status : ℕ
  body : Json

/-- The wire boundary's state.  The dedup table maps a sender's key to the
    fingerprint that first used it and its answer. -/
structure Gateway where
  identity : GatewayIdentity
  signer : GatewaySigner
  store : Store
  dedup : Dict (String × String) (String × Answer)
  peers : Dict String GatewayIdentity
  dealRecords : Dict String String
  maxAgeSeconds : Option ℤ
  screen : ContentScreen

/-- What one message reads of the clock and of the entropy source. -/
structure Boundary where
  received : String
  now : String
  requestId : String
  eventIds : EventIds
  receiptId : String
  receiptKey : String
  receiptAt : String

/-- Register a deal and its mandate. -/
def registerDeal (g : Gateway) (dealId : String) (record : AuthorityRecord) (createdAt : String) :
    Except PyError Unit × Gateway :=
  match g.store.createDeal (.fresh dealId) createdAt with
  | (.error e, s) => (.error e, { g with store := s })
  | (.ok (), s) =>
    match (s.putRecord record).linkDealRecord dealId record.recordId with
    | (.error e, s) => (.error e, { g with store := s })
    | (.ok (), s) =>
      (.ok (), { g with store := s, dealRecords := g.dealRecords.set dealId record.recordId })

/-! ## Answers -/

/-- `_error`. -/
def errorAnswer (status : ℕ) (error : String) : Answer := ⟨status, .obj [("error", .str error)]⟩

/-- `_accepted`, with the signed receipt. -/
def accepted (g : Gateway) (env : WireEnvelope) (b : Boundary) (events : List String)
    (reason : Option String) (decision : Option PolicyDecision) : Except PyError Answer := do
  let payload : ReceiptPayload :=
    { respondsTo := env.messageId, outcome := .accepted, status := 200, events, reason
      decision := decision.map PolicyDecision.toJson }
  let receipt ← makeEnvelope .receipt payload.fields g.identity env.senderId b.receiptId
    b.receiptKey b.receiptAt
  return ⟨200, .obj [("outcome", .str "accepted"), ("receipt", receipt.toJson)]⟩

/-! ## Handlers -/

/-- The mandate of a deal, when it is registered. -/
def Gateway.recordFor (g : Gateway) (dealId : String) : Option AuthorityRecord :=
  (g.dealRecords.get? dealId).bind g.store.records.get?

def audienceError (sender audience : String) : Answer :=
  errorAnswer 403 (s!"sender {sender} is not the counterparty {audience} " ++
    "named by this deal's mandate")

/-- The policy input of a proposal message. -/
def proposalInput (g : Gateway) (env : WireEnvelope) (payload : ProposalPayload) (b : Boundary)
    (record : AuthorityRecord) (authority : AuthorityClaim) (deal : Deal) (now : Timestamp) :
    PolicyInput :=
  let screened := screenContent g.screen payload.content
  { schemaVersion := "0.1"
    requestId := b.requestId
    now
    actor := ⟨.agent, record.agentId⟩
    authority
    counterparty := ⟨record.counterpartyId⟩
    deal
    proposal := {
      action := payload.action
      dealId := payload.dealId
      amountMinor := payload.amountMinor
      currency := record.spendCap.currency
      disclosureFields := payload.disclosureFields
      idempotencyKey := env.idempotencyKey
      contentSha256 := screened.map ScreenedContent.digest }
    content := screened.map ScreenedContent.claims
    contentNeedsDigest := by simp }

/-- The answer to a processed proposal. -/
def proposalAnswer (g : Gateway) (env : WireEnvelope) (b : Boundary) (result : ProcessResult) :
    Except PyError Answer :=
  if result.verdict.outcome = .idempotentHit then
    accepted g env b []
      (some "this exact proposal was already handled; the original decision stands")
      result.decision
  else if result.verdict.outcome ≠ .pass then
    .ok (errorAnswer 400 s!"blocked by the replay gate: {result.verdict.detail}")
  else match result.decision with
    | none => .error .assertionError
    | some decision => accepted g env b [] (some decision.explanation) (some decision)

def handleProposal (g : Gateway) (env : WireEnvelope) (payload : ProposalPayload) (b : Boundary) :
    Except PyError Answer × Store :=
  match g.recordFor payload.dealId, g.store.deals.get? payload.dealId with
  | some record, some deal =>
    match record.counterpartyId.filter (· ≠ env.senderId) with
    | some audience => (.ok (audienceError env.senderId audience), g.store)
    | none =>
      match buildClaim g.store g.signer record b.now, timestampField b.now with
      | .error e, _ | _, .error e => (.error e, g.store)
      | .ok claim, .ok now =>
        let pi := proposalInput g env payload b record claim deal now
        match processRequest g.store pi g.signer b.now b.eventIds with
        | (.error e, s) => (.error e, s)
        | (.ok result, s) => (proposalAnswer g env b result, s)
  | _, _ => (.ok (errorAnswer 404 s!"deal {payload.dealId} is not known to this gateway"), g.store)

/-- The transition a counterparty's event asks for. -/
def counterpartyRequest (g : Gateway) (env : WireEnvelope) (payload : CounterpartyEventPayload)
    (b : Boundary) (event : DealEvent) : TransitionRequest :=
  { dealId := payload.dealId
    commandId := env.messageId
    event
    actorKind := .counterparty
    actorId := env.senderId
    authorityRecordId := none
    amountMinor := none
    occurredAt := env.issuedAt.text
    recordedAt := b.now
    note := payload.note
    content := screenContent g.screen payload.note }

/-- The answer to a counterparty's event. -/
def transitionAnswer (g : Gateway) (env : WireEnvelope) (b : Boundary) (result : CommitResult) :
    Except PyError Answer :=
  if result.outcome = .alreadyApplied then accepted g env b [] (some result.detail) none
  else if result.outcome ≠ .committed then
    .ok (errorAnswer 409 s!"counterparty event not applied: {result.detail}")
  else accepted g env b (result.events.map Event.eventId) none none

def handleCounterpartyEvent (g : Gateway) (env : WireEnvelope) (payload : CounterpartyEventPayload)
    (b : Boundary) : Except PyError Answer × Store :=
  match g.store.deals.get? payload.dealId with
  | none =>
    (.ok (errorAnswer 404 s!"deal {payload.dealId} is not known to this gateway"), g.store)
  | some _ =>
    match ((g.recordFor payload.dealId).bind AuthorityRecord.counterpartyId).filter
        (· ≠ env.senderId) with
    | some audience => (.ok (audienceError env.senderId audience), g.store)
    | none =>
      match (StrEnum.ofValue? payload.event : Option DealEvent) with
      | none =>
        (.ok (errorAnswer 400 s!"unknown counterparty event {pyRepr payload.event}"), g.store)
      | some event =>
        match g.store.commitTransition (counterpartyRequest g env payload b event) g.signer
            b.eventIds with
        | (.error e, s) => (.error e, s)
        | (.ok result, s) => (transitionAnswer g env b result, s)

/-! ## The pipeline -/

/-- The stages before the dispatch: an answer, or the payload. -/
def screenMessage (g : Gateway) (env : WireEnvelope) (b : Boundary) : Except Answer MessagePayload :=
  if env.recipientId ≠ g.identity.identityId then
    .error (errorAnswer 400 s!"message is addressed to {env.recipientId}, not this gateway")
  else match g.peers.get? env.senderId with
    | none => .error (errorAnswer 400 s!"sender {env.senderId} is not a registered peer")
    | some peer =>
      match verifyEnvelope env peer, parsePayload env with
      | .error reason, _ | .ok (), .error reason => .error (errorAnswer 400 reason)
      | .ok (), .ok payload =>
        match g.dedup.get? (env.senderId, env.idempotencyKey) with
        | some (fingerprint, answer) =>
          if fingerprint = envelopeFingerprint env then .error answer
          else .error (errorAnswer 400 ("idempotency key reused with different message content; " ++
            "treated as hostile (ADR-0007)"))
        | none =>
          match g.maxAgeSeconds with
          | some maxAge =>
            if envelopeIsStale env b.received maxAge then
              .error (errorAnswer 400 ("envelope is stale: issued_at is outside the " ++
                s!"{maxAge}s freshness window"))
            else .ok payload
          | none => .ok payload

/-- Keep the answer of a handled message for its redeliveries. -/
def Gateway.keep (g : Gateway) (env : WireEnvelope) :
    Except PyError Answer × Store → Except PyError Answer × Gateway
  | (.error e, s) => (.error e, { g with store := s })
  | (.ok answer, s) =>
    (.ok answer, { g with
      store := s
      dedup := g.dedup.set (env.senderId, env.idempotencyKey) (envelopeFingerprint env, answer) })

/-- `_process_message`. -/
def processMessage (g : Gateway) (env : WireEnvelope) (b : Boundary) :
    Except PyError Answer × Gateway :=
  match screenMessage g env b with
  | .error answer => (.ok answer, g)
  | .ok (.receipt payload) =>
    (.ok ⟨202, .obj [("outcome", .str "acknowledged"), ("responds_to", .str payload.respondsTo)]⟩, g)
  | .ok (.proposal payload) => g.keep env (handleProposal g env payload b)
  | .ok (.counterpartyEvent payload) => g.keep env (handleCounterpartyEvent g env payload b)

end

/-! ## A gateway and a peer -/

section
open Sample
attribute [local instance] Sample.platform

def Sample.identity : GatewayIdentity := ⟨ulid 'G', [1, 2, 3], some [1, 2, 3]⟩

def Sample.peer : GatewayIdentity := ⟨ulid 'Q', [4, 5, 6], some [4, 5, 6]⟩

/-- A gateway with one peer and no deal. -/
def Sample.blank : Gateway :=
  { identity, signer, store := .empty, dedup := .empty
    peers := Dict.empty.set peer.identityId peer
    dealRecords := .empty, maxAgeSeconds := none, screen := ⟨none, "questions"⟩ }

def Sample.boundary : Boundary :=
  { received := now.text, now := now.text, requestId := ulid 'B', eventIds := ids
    receiptId := ulid 'M', receiptKey := ulid 'K', receiptAt := now.text }

/-- The peer's message `n` on the deal. -/
def Sample.message (n : Char) (event : DealEvent) : WireEnvelope :=
  let draft : WireEnvelope :=
    { schemaVersion, messageId := ulid n, idempotencyKey := ulid n, senderId := peer.identityId
      recipientId := identity.identityId, kind := .counterpartyEvent
      payload := ⟨[("deal_id", .str dealId), ("event", .str event.value)], by simp⟩
      issuedAt := now, signature := ⟨algorithm, peer.identityId, ""⟩ }
  { draft with signature := ⟨algorithm, peer.identityId,
      Mandate.sign peer.publicKey (envelopeSigningPayload draft)⟩ }

/-- The gateway with its deal registered. -/
def Sample.opened : Gateway := (registerDeal blank dealId record now.text).2

end

end Mandate
