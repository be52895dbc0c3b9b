/-
  What each stage of the pipeline lets through.

  `screenMessage_cases` and the `_cases` of the two handlers say once what a
  message can lead to; the results about the wire take these apart.  First of
  them, a message changes the ledger only when every check before the write
  holds (`verify_first`).
-/
import Mandate.Transport.Gateway

namespace Mandate

section
variable [Platform]

/-! ## Before the dispatch -/

/-- The envelope is signed by the peer it names, under the peer's key. -/
structure WireEnvelope.Authentic (env : WireEnvelope) (peer : GatewayIdentity) : Prop where
  version : env.schemaVersion = Mandate.schemaVersion
  sender : env.senderId = peer.identityId
  scheme : env.signature.algorithm = algorithm
  keyId : env.signature.keyId = peer.identityId
  signed : ∃ raw, b64urlDecode env.signature.value = .ok raw ∧
    Platform.ed25519Verify peer.publicKey raw (envelopeSigningPayload env)

theorem verifyEnvelope_ok {env : WireEnvelope} {peer : GatewayIdentity} :
    verifyEnvelope env peer = .ok () ↔ env.Authentic peer := by
  unfold verifyEnvelope
  constructor
  · intro h
    split_ifs at h with hv hs ha hk
    cases hr : b64urlDecode env.signature.value with
    | error e => cases e <;> simp [hr] at h
    | ok raw =>
      simp only [hr] at h
      split_ifs at h with hsig
      exact ⟨not_not.1 hv, not_not.1 hs, not_not.1 ha, not_not.1 hk, raw, hr, hsig⟩
  · rintro ⟨hv, hs, ha, hk, raw, hr, hsig⟩
    simp only [hv, hs, ha, hk, hr, hsig, ne_eq, not_true_eq_false, if_false, if_true]

/-- The message was issued within the window, if there is one. -/
def Gateway.Timely (g : Gateway) (env : WireEnvelope) (b : Boundary) : Prop :=
  ∀ maxAge, g.maxAgeSeconds = some maxAge →
    ∃ received, (Datetime.fromisoformat b.received).bind Datetime.instant? = some received ∧
      |received - env.issuedAt.instant| ≤ maxAge * Datetime.second

omit [Platform] in
theorem envelopeIsStale_eq_false {env : WireEnvelope} {now : String} {maxAge : ℤ} :
    envelopeIsStale env now maxAge = false ↔
      ∃ received, (Datetime.fromisoformat now).bind Datetime.instant? = some received ∧
        |received - env.issuedAt.instant| ≤ maxAge * Datetime.second := by
  unfold envelopeIsStale
  cases (Datetime.fromisoformat now).bind Datetime.instant? with
  | none => simp
  | some received => simp

/-- The message is for this gateway, authentic, and its payload can be read. -/
structure Legible (g : Gateway) (env : WireEnvelope) (payload : MessagePayload) : Prop where
  recipient : env.recipientId = g.identity.identityId
  peer : ∃ peer, g.peers.get? env.senderId = some peer ∧ env.Authentic peer
  parsed : parsePayload env = .ok payload

/-- A legible message that is new and timely. -/
structure Admitted (g : Gateway) (env : WireEnvelope) (b : Boundary) (payload : MessagePayload) :
    Prop extends Legible g env payload where
  new : g.dedup.get? (env.senderId, env.idempotencyKey) = none
  timely : g.Timely env b

/-- A check before the dispatch fails. -/
inductive Refused (g : Gateway) (env : WireEnvelope) (b : Boundary) : Prop
  | recipient (h : env.recipientId ≠ g.identity.identityId)
  | sender (h : g.peers.get? env.senderId = none)
  | signature (peer : GatewayIdentity) (hp : g.peers.get? env.senderId = some peer)
      (h : ¬ env.Authentic peer)
  | payload (h : ∀ payload, parsePayload env ≠ .ok payload)
  | reused (fingerprint : String) (answer : Answer)
      (hd : g.dedup.get? (env.senderId, env.idempotencyKey) = some (fingerprint, answer))
      (h : fingerprint ≠ envelopeFingerprint env)
  | stale (hd : g.dedup.get? (env.senderId, env.idempotencyKey) = none) (h : ¬ g.Timely env b)

/-- What the stages before the dispatch do with a message. -/
inductive Screened (g : Gateway) (env : WireEnvelope) (b : Boundary) :
    Except Answer MessagePayload → Prop
  | refused (reason : String) (h : Refused g env b) :
      Screened g env b (.error (errorAnswer 400 reason))
  | again (payload : MessagePayload) (answer : Answer) (h : Legible g env payload)
      (hd : g.dedup.get? (env.senderId, env.idempotencyKey) =
        some (envelopeFingerprint env, answer)) : Screened g env b (.error answer)
  | admitted (payload : MessagePayload) (h : Admitted g env b payload) :
      Screened g env b (.ok payload)

theorem screenMessage_cases (g : Gateway) (env : WireEnvelope) (b : Boundary) :
    Screened g env b (screenMessage g env b) := by
  unfold screenMessage
  split_ifs with hr
  · exact .refused _ (.recipient hr)
  · cases hp : g.peers.get? env.senderId with
    | none => exact .refused _ (.sender hp)
    | some peer =>
      simp only
      cases hv : verifyEnvelope env peer with
      | error reason =>
        refine .refused _ (.signature peer hp fun ha => ?_)
        rw [verifyEnvelope_ok.2 ha] at hv
        cases hv
      | ok u =>
        cases hq : parsePayload env with
        | error reason =>
          refine .refused _ (.payload fun payload h => ?_)
          rw [hq] at h
          cases h
        | ok payload =>
          have hl : Legible g env payload := ⟨not_not.1 hr, ⟨peer, hp, verifyEnvelope_ok.1 hv⟩, hq⟩
          simp only
          cases hd : g.dedup.get? (env.senderId, env.idempotencyKey) with
          | some stored =>
            obtain ⟨fingerprint, answer⟩ := stored
            simp only
            split_ifs with hf
            · exact .again payload answer hl (hf ▸ hd)
            · exact .refused _ (.reused fingerprint answer hd hf)
          | none =>
            simp only
            cases hm : g.maxAgeSeconds with
            | none => exact .admitted payload ⟨hl, hd, fun maxAge h => by rw [hm] at h; cases h⟩
            | some maxAge =>
              simp only
              split_ifs with hs
              · refine .refused _ (.stale hd fun ht => ?_)
                rw [envelopeIsStale_eq_false.2 (ht maxAge hm)] at hs
                cases hs
              · refine .admitted payload ⟨hl, hd, fun age h => ?_⟩
                rw [hm] at h
                cases h
                exact envelopeIsStale_eq_false.1 (Bool.eq_false_iff.2 hs)

/-- A message that fails a check is neither a redelivery nor admitted. -/
theorem Refused.not_legible {g : Gateway} {env : WireEnvelope} {b : Boundary}
    {payload : MessagePayload} (h : Refused g env b) (hl : Legible g env payload) :
    (∀ answer, g.dedup.get? (env.senderId, env.idempotencyKey) ≠
      some (envelopeFingerprint env, answer)) ∧ ¬ Admitted g env b payload := by
  cases h with
  | recipient h => exact absurd hl.recipient h
  | sender h =>
    obtain ⟨peer, hp, -⟩ := hl.peer
    rw [h] at hp
    cases hp
  | signature peer hp h =>
    obtain ⟨peer', hp', ha⟩ := hl.peer
    rw [hp] at hp'
    cases hp'
    exact absurd ha h
  | payload h => exact absurd hl.parsed (h payload)
  | reused fingerprint answer hd h =>
    refine ⟨fun answer' hd' => ?_, fun ha => ?_⟩
    · rw [hd] at hd'
      cases hd'
      exact h rfl
    · have hn := ha.new
      rw [hd] at hn
      cases hn
  | stale hd h =>
    refine ⟨fun answer hd' => ?_, fun ha => h ha.timely⟩
    rw [hd] at hd'
    cases hd'

/-! ## The handlers -/

/-- What the handler of a proposal does. -/
inductive ProposalHandled (g : Gateway) (env : WireEnvelope) (payload : ProposalPayload)
    (b : Boundary) : Except PyError Answer × Store → Prop
  | unknown (h : g.recordFor payload.dealId = none ∨ g.store.deals.get? payload.dealId = none) :
      ProposalHandled g env payload b
        (.ok (errorAnswer 404 s!"deal {payload.dealId} is not known to this gateway"), g.store)
  | audience (record : AuthorityRecord) (audience : String)
      (hr : g.recordFor payload.dealId = some record)
      (ha : record.counterpartyId = some audience) (hne : audience ≠ env.senderId) :
      ProposalHandled g env payload b (.ok (audienceError env.senderId audience), g.store)
  | raised (error : PyError) : ProposalHandled g env payload b (.error error, g.store)
  | processed (record : AuthorityRecord) (deal : Deal) (claim : AuthorityClaim) (now : Timestamp)
      (hr : g.recordFor payload.dealId = some record)
      (hd : g.store.deals.get? payload.dealId = some deal)
      (ha : ∀ audience, record.counterpartyId = some audience → audience = env.senderId)
      (hc : buildClaim g.store g.signer record b.now = .ok claim)
      (hn : timestampField b.now = .ok now) (r : Except PyError ProcessResult) (s : Store)
      (hp : processRequest g.store (proposalInput g env payload b record claim deal now) g.signer
        b.now b.eventIds = (r, s)) :
      ProposalHandled g env payload b (r.bind (proposalAnswer g env b), s)

omit [Platform] in
theorem filter_ne_eq_none {audience : Option String} {sender : String} :
    audience.filter (· ≠ sender) = none ↔ ∀ a, audience = some a → a = sender := by
  cases audience with
  | none => simp
  | some a => by_cases h : a = sender <;> simp [Option.filter, h]

omit [Platform] in
theorem filter_ne_eq_some {audience : Option String} {sender a : String} :
    audience.filter (· ≠ sender) = some a ↔ audience = some a ∧ a ≠ sender := by
  rw [Option.filter_eq_some_iff, decide_eq_true_eq]

theorem handleProposal_cases (g : Gateway) (env : WireEnvelope) (payload : ProposalPayload)
    (b : Boundary) : ProposalHandled g env payload b (handleProposal g env payload b) := by
  unfold handleProposal
  cases hr : g.recordFor payload.dealId with
  | none => exact .unknown (.inl hr)
  | some record =>
    cases hd : g.store.deals.get? payload.dealId with
    | none => exact .unknown (.inr hd)
    | some deal =>
      simp only
      cases ha : record.counterpartyId.filter (· ≠ env.senderId) with
      | some audience =>
        obtain ⟨ha, hne⟩ := filter_ne_eq_some.1 ha
        exact .audience record audience hr ha hne
      | none =>
        simp only
        cases hc : buildClaim g.store g.signer record b.now with
        | error e => exact .raised e
        | ok claim =>
          cases hn : timestampField b.now with
          | error e => exact .raised e
          | ok now =>
            simp only
            have hcases : ∀ r s, processRequest g.store
                (proposalInput g env payload b record claim deal now) g.signer b.now b.eventIds =
                  (r, s) → ProposalHandled g env payload b (r.bind (proposalAnswer g env b), s) :=
              .processed record deal claim now hr hd (filter_ne_eq_none.1 ha) hc hn
            generalize processRequest g.store (proposalInput g env payload b record claim deal now)
              g.signer b.now b.eventIds = done at hcases ⊢
            obtain ⟨r, s⟩ := done
            cases r with
            | error e => exact hcases _ _ rfl
            | ok result => exact hcases _ _ rfl

/-- What the handler of a counterparty's event does. -/
inductive EventHandled (g : Gateway) (env : WireEnvelope) (payload : CounterpartyEventPayload)
    (b : Boundary) : Except PyError Answer × Store → Prop
  | refused (status : ℕ) (reason : String) (hs : 400 ≤ status ∧ status < 500) :
      EventHandled g env payload b (.ok (errorAnswer status reason), g.store)
  | committed (deal : Deal) (event : DealEvent)
      (hd : g.store.deals.get? payload.dealId = some deal)
      (ha : ∀ record audience, g.recordFor payload.dealId = some record →
        record.counterpartyId = some audience → audience = env.senderId)
      (he : StrEnum.ofValue? payload.event = some event) (r : Except PyError CommitResult)
      (s : Store)
      (hc : g.store.commitTransition (counterpartyRequest g env payload b event) g.signer
        b.eventIds = (r, s)) :
      EventHandled g env payload b (r.bind (transitionAnswer g env b), s)

theorem handleCounterpartyEvent_cases (g : Gateway) (env : WireEnvelope)
    (payload : CounterpartyEventPayload) (b : Boundary) :
    EventHandled g env payload b (handleCounterpartyEvent g env payload b) := by
  unfold handleCounterpartyEvent
  cases hd : g.store.deals.get? payload.dealId with
  | none => exact .refused _ _ (by decide)
  | some deal =>
    simp only
    cases ha : ((g.recordFor payload.dealId).bind AuthorityRecord.counterpartyId).filter
        (· ≠ env.senderId) with
    | some audience => exact .refused _ _ (by decide)
    | none =>
      simp only
      cases he : (StrEnum.ofValue? payload.event : Option DealEvent) with
      | none => exact .refused _ _ (by decide)
      | some event =>
        simp only
        have haud : ∀ record audience, g.recordFor payload.dealId = some record →
            record.counterpartyId = some audience → audience = env.senderId :=
          fun record audience hr hc => filter_ne_eq_none.1 ha audience (by rw [hr]; exact hc)
        have hcases : ∀ r s, g.store.commitTransition (counterpartyRequest g env payload b event)
            g.signer b.eventIds = (r, s) →
              EventHandled g env payload b (r.bind (transitionAnswer g env b), s) :=
          .committed deal event hd haud he
        generalize g.store.commitTransition (counterpartyRequest g env payload b event) g.signer
          b.eventIds = done at hcases ⊢
        obtain ⟨r, s⟩ := done
        cases r with
        | error e => exact hcases _ _ rfl
        | ok result => exact hcases _ _ rfl

/-! ## The whole pipeline -/

theorem keep_store (g : Gateway) (env : WireEnvelope) (r : Except PyError Answer × Store) :
    (g.keep env r).2.store = r.2 := by
  obtain ⟨_ | _, s⟩ := r <;> rfl

theorem keep_answer (g : Gateway) (env : WireEnvelope) (r : Except PyError Answer × Store) :
    (g.keep env r).1 = r.1 := by
  obtain ⟨_ | _, s⟩ := r <;> rfl

/-- What a message does: it is answered at once, or its handler runs. -/
inductive Processed (g : Gateway) (env : WireEnvelope) (b : Boundary) :
    Except PyError Answer × Gateway → Prop
  | refused (reason : String) (h : Refused g env b) :
      Processed g env b (.ok (errorAnswer 400 reason), g)
  | again (payload : MessagePayload) (answer : Answer) (h : Legible g env payload)
      (hd : g.dedup.get? (env.senderId, env.idempotencyKey) =
        some (envelopeFingerprint env, answer)) : Processed g env b (.ok answer, g)
  | receipt (payload : ReceiptPayload) (h : Admitted g env b (.receipt payload)) :
      Processed g env b (.ok ⟨202, .obj [("outcome", .str "acknowledged"),
        ("responds_to", .str payload.respondsTo)]⟩, g)
  | proposal (payload : ProposalPayload) (h : Admitted g env b (.proposal payload))
      (done : Except PyError Answer × Store) (hh : ProposalHandled g env payload b done)
      (hd : handleProposal g env payload b = done) : Processed g env b (g.keep env done)
  | event (payload : CounterpartyEventPayload) (h : Admitted g env b (.counterpartyEvent payload))
      (done : Except PyError Answer × Store) (hh : EventHandled g env payload b done)
      (hd : handleCounterpartyEvent g env payload b = done) : Processed g env b (g.keep env done)

theorem processMessage_cases (g : Gateway) (env : WireEnvelope) (b : Boundary) :
    Processed g env b (processMessage g env b) := by
  have hcases := screenMessage_cases g env b
  unfold processMessage
  generalize screenMessage g env b = screened at hcases ⊢
  cases hcases with
  | refused reason h => exact .refused reason h
  | again payload answer h hd => exact .again payload answer h hd
  | admitted payload h =>
    cases payload with
    | receipt payload => exact .receipt payload h
    | proposal payload => exact .proposal payload h _ (handleProposal_cases g env payload b) rfl
    | counterpartyEvent payload =>
      exact .event payload h _ (handleCounterpartyEvent_cases g env payload b) rfl

/-! ## Verify first -/

/-- The deal a message is about. -/
def MessagePayload.dealId? : MessagePayload → Option String
  | proposal p => some p.dealId
  | counterpartyEvent p => some p.dealId
  | receipt _ => none

/-- Everything that is checked before a write: the message is admitted, its
    deal is stored, and its sender is the counterparty of the deal's mandate,
    if the mandate has one. -/
structure Verified (g : Gateway) (env : WireEnvelope) (b : Boundary) (payload : MessagePayload)
    (dealId : String) : Prop extends Admitted g env b payload where
  about : payload.dealId? = some dealId
  stored : (g.store.deals.get? dealId).isSome
  audience : ∀ record audience, g.recordFor dealId = some record →
    record.counterpartyId = some audience → audience = env.senderId

variable {g : Gateway} {env : WireEnvelope} {b : Boundary}

theorem verified_of_changed (hne : (processMessage g env b).2.store ≠ g.store) :
    ∃ payload dealId, Verified g env b payload dealId := by
  have hcases := processMessage_cases g env b
  generalize processMessage g env b = done at hcases hne
  cases hcases with
  | refused => exact absurd rfl hne
  | again => exact absurd rfl hne
  | receipt => exact absurd rfl hne
  | proposal payload h done hh _ =>
    rw [keep_store] at hne
    cases hh with
    | unknown => exact absurd rfl hne
    | audience => exact absurd rfl hne
    | raised => exact absurd rfl hne
    | processed record deal claim now hr hd ha hc hn r s hp =>
      refine ⟨_, payload.dealId, h, rfl, by rw [hd]; rfl, fun record' audience hr' => ?_⟩
      rw [hr] at hr'
      cases hr'
      exact ha audience
  | event payload h done hh _ =>
    rw [keep_store] at hne
    cases hh with
    | refused => exact absurd rfl hne
    | committed deal event hd ha he r s hc =>
      exact ⟨_, payload.dealId, h, rfl, by rw [hd]; rfl, ha⟩

theorem Refused.answered (h : Refused g env b) : ∃ answer, processMessage g env b = (.ok answer, g) ∧
    400 ≤ answer.status ∧ answer.status < 500 := by
  have hcases := processMessage_cases g env b
  generalize processMessage g env b = done at hcases ⊢
  cases hcases with
  | refused reason => exact ⟨_, rfl, by simp [errorAnswer], by simp [errorAnswer]⟩
  | again payload answer hl hd => exact absurd hd ((h.not_legible hl).1 answer)
  | receipt payload hs => exact absurd hs (h.not_legible hs.toLegible).2
  | proposal payload hs => exact absurd hs (h.not_legible hs.toLegible).2
  | event payload hs => exact absurd hs (h.not_legible hs.toLegible).2

theorem Legible.answered_again {payload : MessagePayload} (hl : Legible g env payload) {answer : Answer}
    (hd : g.dedup.get? (env.senderId, env.idempotencyKey) =
      some (envelopeFingerprint env, answer)) (b : Boundary) :
    processMessage g env b = (.ok answer, g) := by
  have hcases := processMessage_cases g env b
  generalize processMessage g env b = done at hcases ⊢
  -- only a redelivery finds its key in the table
  have hnew : ∀ {payload}, Admitted g env b payload → False := by
    intro _ h
    rw [h.new] at hd
    cases hd
  cases hcases with
  | refused reason h => exact absurd hd ((h.not_legible hl).1 answer)
  | again payload' answer' hl' hd' =>
    rw [hd] at hd'
    cases hd'
    rfl
  | receipt _ h => exact (hnew h).elim
  | proposal _ h => exact (hnew h).elim
  | event _ h => exact (hnew h).elim

/-- A message changes the ledger only when everything is verified.  One that
    fails a check before the handlers is answered 400, and a redelivery as
    before; neither changes the ledger or the dedup table. -/
theorem verify_first (g : Gateway) (env : WireEnvelope) (b : Boundary) :
    ((processMessage g env b).2.store ≠ g.store →
      ∃ payload dealId, Verified g env b payload dealId) ∧
    (Refused g env b → ∃ answer, processMessage g env b = (.ok answer, g) ∧
      400 ≤ answer.status ∧ answer.status < 500) ∧
    (∀ payload answer, Legible g env payload →
      g.dedup.get? (env.senderId, env.idempotencyKey) = some (envelopeFingerprint env, answer) →
        processMessage g env b = (.ok answer, g)) :=
  ⟨verified_of_changed, Refused.answered, fun _ _ hl hd => hl.answered_again hd b⟩

end

end Mandate
