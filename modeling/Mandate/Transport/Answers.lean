/-
  The decision in an accepted answer.

  An accepted answer carries a signed receipt, and a receipt for a proposal the
  decision (`Answer.Carries`).  The gateway fills in the currency of the
  proposal from the mandate and not from the signed payload.  So the decision is
  the one on what the peer signed exactly when the two currencies are the same
  (`decides_on_signed_currency`, `dollars_allowed_as_euros`).
-/
import Mandate.Application.ExactlyOnce
import Mandate.Policy.Permitted
import Mandate.Transport.Pipeline

namespace Mandate

section
variable [Platform]

/-! ## Receipts -/

/-- An accepted answer with this receipt. -/
def acceptedAnswer (receipt : WireEnvelope) : Answer :=
  ⟨200, .obj [("outcome", .str "accepted"), ("receipt", receipt.toJson)]⟩

/-- A receipt of the gateway for a message, with this payload. -/
structure WireEnvelope.Receipts (receipt : WireEnvelope) (g : Gateway) (env : WireEnvelope)
    (payload : ReceiptPayload) : Prop where
  kind : receipt.kind = .receipt
  sender : receipt.senderId = g.identity.identityId
  recipient : receipt.recipientId = env.senderId
  contents : receipt.payload = payload.fields
  respondsTo : payload.respondsTo = env.messageId

theorem accepted_ok {g : Gateway} {env : WireEnvelope} {b : Boundary} {events : List String}
    {reason : Option String} {decision : Option PolicyDecision} {answer : Answer}
    (h : accepted g env b events reason decision = .ok answer) :
    ∃ receipt, answer = acceptedAnswer receipt ∧ receipt.Receipts g env
      { respondsTo := env.messageId, outcome := .accepted, status := 200, events, reason
        decision := decision.map PolicyDecision.toJson } := by
  obtain ⟨receipt, hr, h⟩ := bind_ok.1 h
  cases h
  unfold makeEnvelope at hr
  cases hk : g.identity.privateKey with
  | none =>
    simp only [hk] at hr
    cases hr
  | some key =>
    simp only [hk] at hr
    obtain ⟨issuedAt, hi, hr⟩ := bind_ok.1 hr
    cases hr
    exact ⟨_, rfl, rfl, rfl, rfl, rfl, rfl⟩

/-- The answer is accepted, and its receipt carries the decision. -/
def Answer.Carries (answer : Answer) (d : PolicyDecision) : Prop :=
  ∃ receipt, answer = acceptedAnswer receipt ∧ receipt.payload.get? "decision" = some d.toJson

omit [Platform] in
theorem acceptedAnswer_inj {r r' : WireEnvelope} (h : acceptedAnswer r = acceptedAnswer r') :
    r.payload.entries = r'.payload.entries := by
  simp only [acceptedAnswer, Answer.mk.injEq, Json.obj.injEq, List.cons.injEq, Prod.mk.injEq,
    true_and, and_true] at h
  simp only [WireEnvelope.toJson, WireEnvelope.unsignedFields, List.cons_append, List.nil_append,
    Json.obj.injEq, List.cons.injEq, Prod.mk.injEq, true_and] at h
  exact h.2.2.2.2.2.2.1

omit [Platform] in
theorem PolicyDecision.toJson_inj {d d' : PolicyDecision} (h : d.toJson = d'.toJson) : d = d' := by
  simp only [PolicyDecision.toJson, Json.obj.injEq, List.cons.injEq, Prod.mk.injEq, true_and,
    and_true, Json.str.injEq] at h
  obtain ⟨ho, hr, he, hm, ha, ht, hi⟩ := h
  have houtcome : d.outcome = d'.outcome := StrEnum.value_inj ho
  have hreason : d.reasonCode = d'.reasonCode := StrEnum.value_inj hr
  cases d
  cases d'
  simp_all only

omit [Platform] in
/-- An answer carries one decision. -/
theorem Answer.Carries.inj {answer : Answer} {d d' : PolicyDecision} (h : answer.Carries d)
    (h' : answer.Carries d') : d = d' := by
  obtain ⟨receipt, rfl, hd⟩ := h
  obtain ⟨receipt', heq, hd'⟩ := h'
  rw [Dict.get?, ← acceptedAnswer_inj heq] at hd'
  exact PolicyDecision.toJson_inj (Option.some.inj (hd.symm.trans hd'))

/-! ## The decision of a new proposal -/

/-- The policy input with the currency that the peer signed. -/
def signedInput (g : Gateway) (env : WireEnvelope) (payload : ProposalPayload) (b : Boundary)
    (record : AuthorityRecord) (authority : AuthorityClaim) (deal : Deal) (now : Timestamp) :
    PolicyInput :=
  let pi := proposalInput g env payload b record authority deal now
  { pi with proposal := { pi.proposal with currency := payload.currency } }

/-- A verified proposal that is new and passes the replay gate. -/
structure Decides (g : Gateway) (env : WireEnvelope) (payload : ProposalPayload) (b : Boundary)
    (record : AuthorityRecord) (claim : AuthorityClaim) (deal : Deal) (now : Timestamp) : Prop where
  admitted : Admitted g env b (.proposal payload)
  mandate : g.recordFor payload.dealId = some record
  stored : g.store.deals.get? payload.dealId = some deal
  audience : ∀ audience, record.counterpartyId = some audience → audience = env.senderId
  built : buildClaim g.store g.signer record b.now = .ok claim
  clock : timestampField b.now = .ok now
  gate : (checkAntiReplay (proposalInput g env payload b record claim deal now)
    g.store.seen).outcome = .pass

variable {g : Gateway} {env : WireEnvelope} {payload : ProposalPayload} {b : Boundary}
  {record : AuthorityRecord} {claim : AuthorityClaim} {deal : Deal} {now : Timestamp}
  {answer : Answer}

theorem handleProposal_of_decides (h : Decides g env payload b record claim deal now) :
    ∃ r s, processRequest g.store (proposalInput g env payload b record claim deal now) g.signer
        b.now b.eventIds = (r, s) ∧
      handleProposal g env payload b = (r.bind (proposalAnswer g env b), s) := by
  have haud : record.counterpartyId.filter (· ≠ env.senderId) = none :=
    filter_ne_eq_none.2 h.audience
  simp only [handleProposal, h.mandate, h.stored, haud, h.built, h.clock]
  generalize processRequest g.store (proposalInput g env payload b record claim deal now) g.signer
    b.now b.eventIds = done
  obtain ⟨_ | result, s⟩ := done
  · exact ⟨_, _, rfl, rfl⟩
  · exact ⟨_, _, rfl, rfl⟩

theorem processMessage_of_admitted {p : MessagePayload} (h : Admitted g env b p) :
    screenMessage g env b = .ok p := by
  have hcases := screenMessage_cases g env b
  generalize screenMessage g env b = screened at hcases ⊢
  cases hcases with
  | refused reason hr => exact absurd h (hr.not_legible h.toLegible).2
  | again p' answer hl hd =>
    rw [h.new] at hd
    cases hd
  | admitted p' h' =>
    have hp := h.parsed
    rw [h'.parsed, Except.ok.injEq] at hp
    rw [hp]

/-- The answer to such a proposal carries the evaluation of the gateway's own
    policy input. -/
theorem carries_of_decides (h : Decides g env payload b record claim deal now)
    (ha : (processMessage g env b).1 = .ok answer) :
    answer.Carries (evaluate (proposalInput g env payload b record claim deal now)) := by
  obtain ⟨r, s, hp, hh⟩ := handleProposal_of_decides h
  rw [processMessage, processMessage_of_admitted h.admitted] at ha
  simp only [hh, keep_answer] at ha
  cases r with
  | error e => cases ha
  | ok result =>
    obtain ⟨commit, rfl, -⟩ := processRequest_result h.gate (congrArg Prod.fst hp)
    simp only [Except.bind, proposalAnswer, h.gate, reduceCtorEq, if_false, ne_eq,
      not_true_eq_false] at ha
    obtain ⟨receipt, rfl, hr⟩ := accepted_ok ha
    refine ⟨receipt, rfl, ?_⟩
    rw [hr.contents]
    rfl

theorem signedInput_eq (h : payload.currency = record.spendCap.currency) :
    signedInput g env payload b record claim deal now =
      proposalInput g env payload b record claim deal now := by
  simp only [signedInput, proposalInput, h]

omit [Platform] in
/-- Inputs with one canonical form have one currency. -/
theorem currency_of_normalize {pi pi' : PolicyInput}
    (h : Json.normalize pi.toJson = Json.normalize pi'.toJson) :
    pi.proposal.currency = pi'.proposal.currency := by
  have key := Json.member_inj (by simp) (by simp) h "proposal"
  have hp : Json.normalize pi.proposal.toJson = Json.normalize pi'.proposal.toJson :=
    Option.some.inj key
  rw [Proposal.eq_of_normalize hp]

/-- The answer to a new proposal carries the decision on what the peer signed
    exactly when the signed currency is that of the mandate's cap. -/
theorem decides_on_signed_currency (h : Decides g env payload b record claim deal now)
    (ha : (processMessage g env b).1 = .ok answer)
    (hc : NoCollision
      (Json.canonicalBytes (signedInput g env payload b record claim deal now).toJson)
      (Json.canonicalBytes (proposalInput g env payload b record claim deal now).toJson)) :
    answer.Carries (evaluate (signedInput g env payload b record claim deal now)) ↔
      payload.currency = record.spendCap.currency := by
  have hown := carries_of_decides h ha
  constructor
  · intro hsigned
    -- the decisions name the digests of the inputs
    have hdigest := congrArg PolicyDecision.inputDigest (hsigned.inj hown)
    rw [evaluate_inputDigest, evaluate_inputDigest] at hdigest
    exact currency_of_normalize (Json.canonicalBytes_inj.1 (hc hdigest))
  · intro heq
    rw [signedInput_eq heq]
    exact hown

end

/-! ## Dollars under a mandate in euros -/

section
open Sample
attribute [local instance] Sample.platform

/-- The peer's proposal of a quote for 100 in a currency. -/
def Sample.priced (currency : String) : WireEnvelope :=
  let draft : WireEnvelope :=
    { schemaVersion, messageId := ulid '1', idempotencyKey := ulid '1', senderId := peer.identityId
      recipientId := identity.identityId, kind := .proposal
      payload := ⟨[("action", .str "request_quote"), ("deal_id", .str dealId),
        ("amount_minor", .int 100), ("currency", .str currency),
        ("idempotency_key", .str (ulid '1'))], by simp⟩
      issuedAt := now, signature := ⟨algorithm, peer.identityId, ""⟩ }
  { draft with signature := ⟨algorithm, peer.identityId,
      Mandate.sign peer.publicKey (envelopeSigningPayload draft)⟩ }

/-- What the peer proposes. -/
def Sample.price (currency : String) : ProposalPayload :=
  { action := "request_quote", dealId, amountMinor := some 100, currency
    idempotencyKey := ulid '1' }

/-- The claim about the mandate at the gateway. -/
def Sample.mandateClaim : AuthorityClaim := opened.store.claimAt signer record now

theorem Sample.timestampField_now : timestampField boundary.now = .ok now := by
  have h : (timestampField boundary.now).map Timestamp.text = .ok now.text := by decide +kernel
  cases ht : timestampField boundary.now with
  | error e =>
    rw [ht] at h
    cases h
  | ok t =>
    rw [ht] at h
    rw [Timestamp.ext_text (Except.ok.inj h)]

/-- What the peer signs is authentic. -/
theorem Sample.decode_peer : b64urlDecode (b64urlEncode peer.publicKey) = .ok peer.publicKey := by
  have h : (b64urlDecode (b64urlEncode peer.publicKey)).toOption = some peer.publicKey := by
    decide +kernel
  cases hd : b64urlDecode (b64urlEncode peer.publicKey) with
  | error e =>
    rw [hd] at h
    cases h
  | ok raw =>
    rw [hd] at h
    cases h
    rfl

theorem Sample.opened_deal : opened.store.deals.get? dealId = some (.fresh dealId) := by
  decide +kernel

theorem Sample.priced_decides (currency : String) (hg : (checkAntiReplay (proposalInput opened
      (priced currency) (price currency) boundary record mandateClaim (.fresh dealId) now)
        opened.store.seen).outcome = .pass) :
    Decides opened (priced currency) (price currency) boundary record mandateClaim
      (.fresh dealId) now where
  admitted :=
    { recipient := rfl
      peer := ⟨peer, rfl, rfl, rfl, rfl, rfl, peer.publicKey, decode_peer, rfl⟩
      parsed := rfl
      new := rfl
      timely := by rintro maxAge ⟨⟩ }
  mandate := rfl
  stored := opened_deal
  audience := by rintro audience ⟨⟩
  built := buildClaim_text ..
  clock := timestampField_now
  gate := hg

/-- A price in dollars under a mandate in euros is allowed, as if it were in
    euros; on what the peer signed the decision is a denial. -/
theorem dollars_allowed_as_euros :
    ∃ answer, (processMessage opened (priced "USD") boundary).1 = .ok answer ∧
      answer.Carries (evaluate (proposalInput opened (priced "USD") (price "USD") boundary record
        mandateClaim (.fresh dealId) now)) ∧
      (evaluate (proposalInput opened (priced "USD") (price "USD") boundary record
        mandateClaim (.fresh dealId) now)).outcome = .allow ∧
      (evaluate (signedInput opened (priced "USD") (price "USD") boundary record
        mandateClaim (.fresh dealId) now)).reasonCode = .currencyMismatch ∧
      ¬ answer.Carries (evaluate (signedInput opened (priced "USD") (price "USD") boundary record
        mandateClaim (.fresh dealId) now)) ∧
      ((processMessage opened (priced "USD") boundary).2.store.deals.get? dealId).map Deal.state =
        some .quoteRequested := by
  have hd := priced_decides "USD" (by decide +kernel)
  have hok : (processMessage opened (priced "USD") boundary).1.isOk := by decide +kernel
  cases ha : (processMessage opened (priced "USD") boundary).1 with
  | error e =>
    rw [ha] at hok
    cases hok
  | ok answer =>
    have hown := carries_of_decides hd ha
    have hallow : (evaluate (proposalInput opened (priced "USD") (price "USD") boundary record
        mandateClaim (.fresh dealId) now)).reasonCode = .ok := by decide +kernel
    have hdeny : (evaluate (signedInput opened (priced "USD") (price "USD") boundary record
        mandateClaim (.fresh dealId) now)).reasonCode = .currencyMismatch := by decide +kernel
    refine ⟨answer, rfl, hown, by decide +kernel, hdeny, fun hsigned => ?_, by decide +kernel⟩
    rw [hsigned.inj hown, hallow] at hdeny
    cases hdeny

theorem euros_allowed : ∃ answer, (processMessage opened (priced "EUR") boundary).1 = .ok answer ∧
    (answer.Carries (evaluate (signedInput opened (priced "EUR") (price "EUR") boundary record
      mandateClaim (.fresh dealId) now)) ↔ "EUR" = record.spendCap.currency) := by
  have hd := priced_decides "EUR" (by decide +kernel)
  have hok : (processMessage opened (priced "EUR") boundary).1.isOk := by decide +kernel
  cases ha : (processMessage opened (priced "EUR") boundary).1 with
  | error e =>
    rw [ha] at hok
    cases hok
  | ok answer =>
    refine ⟨answer, rfl, decides_on_signed_currency hd ha fun _ => ?_⟩
    rw [signedInput_eq rfl]

end

end Mandate
