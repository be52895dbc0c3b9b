/-
  What the store writes.

  Every event of a stored chain was built by the store's signer, for the deal
  whose chain it is on and for its place there, from a payload with distinct
  keys (`written_invariant`).  So a stored chain is intact, and each of its
  events names the deal.
-/
import Mandate.Ledger.DealSteps
import Mandate.Ledger.Verification
import Mandate.Domain.Stability

namespace Mandate

variable [Platform]

/-! ## Payloads -/

section
omit [Platform]

theorem ContentClaims.distinct (c : ContentClaims) : c.toJson.Distinct := by
  have hdetected : Json.DistinctItems (c.detected.map DetectedField.toJson) := by
    refine Json.distinctItems_iff.2 fun x hx => ?_
    obtain ⟨d, -, rfl⟩ := List.mem_map.1 hx
    simp [DetectedField.toJson, Json.Distinct, Json.DistinctFields]
  simp [ContentClaims.toJson, Json.Distinct, Json.DistinctFields, hdetected]

theorem distinct_outboundMessagePayload (content : ScreenedContent) (requestId action : String)
    (declaredFields : List String) :
    Json.Distinct (.obj (outboundMessagePayload content requestId action declaredFields)) := by
  have hfields : Json.DistinctItems (declaredFields.map .str) := by
    refine Json.distinctItems_iff.2 fun x hx => ?_
    obtain ⟨s, -, rfl⟩ := List.mem_map.1 hx
    trivial
  simp [outboundMessagePayload, Json.Distinct, Json.DistinctFields, content.claims.distinct,
    hfields]

theorem distinct_inboundMessagePayload (content : ScreenedContent) (commandId event : String) :
    Json.Distinct (.obj (inboundMessagePayload content commandId event)) := by
  simp [inboundMessagePayload, Json.Distinct, Json.DistinctFields, content.claims.distinct]

theorem distinct_decisionPayload (requestId action : String) (decision : PolicyDecision)
    (amountMinor : Option ℤ) (idempotencyKey proposalDigest : String) :
    Json.Distinct (.obj (decisionPayload requestId action decision amountMinor idempotencyKey
      proposalDigest)) := by
  simp [decisionPayload, Json.Distinct, Json.DistinctFields, distinct_optInt]

theorem distinct_approvalRequiredPayload (requestId action : String) (amountMinor : Option ℤ)
    (approvalId currency authorityRecordId reasonCode : String) :
    Json.Distinct (.obj (approvalRequiredPayload requestId action amountMinor approvalId currency
      authorityRecordId reasonCode)) := by
  simp [approvalRequiredPayload, approvalHead, Json.Distinct, Json.DistinctFields,
    distinct_optInt]

theorem distinct_approvalGrantedPayload (requestId action : String) (amountMinor : Option ℤ)
    (commandId decidedBy : String) (approvalRecord : ApprovalRecord) :
    Json.Distinct (.obj (approvalGrantedPayload requestId action amountMinor commandId decidedBy
      approvalRecord)) := by
  simp [approvalGrantedPayload, approvalHead, Json.Distinct, Json.DistinctFields,
    distinct_optInt, approvalRecord.distinct]

theorem distinct_approvalDeniedPayload (requestId action : String) (amountMinor : Option ℤ)
    (commandId decidedBy : String) (denyReason : Option String) :
    Json.Distinct (.obj (approvalDeniedPayload requestId action amountMinor commandId decidedBy
      denyReason)) := by
  cases denyReason <;>
    simp [approvalDeniedPayload, approvalHead, Json.Distinct, Json.DistinctFields,
      distinct_optInt]

theorem distinct_revocationPayload (revocation : Revocation) :
    Json.Distinct (.obj (revocationPayload revocation)) := by
  simp [revocationPayload, Json.Distinct, Json.DistinctFields, revocation.distinct]

end

theorem distinct_transitionPayload (cause : Cause) (event : DealEvent) (deal newDeal : Deal)
    (amountMinor : Option ℤ) :
    Json.Distinct (.obj (transitionPayload cause event deal newDeal amountMinor)) := by
  cases cause with
  | request requestId action =>
    simp [transitionPayload, Cause.fields, Json.Distinct, Json.DistinctFields, distinct_optInt]
  | command commandId note =>
    by_cases hn : note = "" <;>
      simp [transitionPayload, Cause.fields, Json.Distinct, Json.DistinctFields, distinct_optInt,
        hn]

/-! ## Written chains -/

/-- The event is one the signer writes for the deal, as the event with this
    index after an event with hash `previous`. -/
structure Event.Written (signer : GatewaySigner) (dealId : String) (index : ℕ)
    (previous : String) (e : Event) : Prop where
  built : ∃ (h : EventHeader) (id : String) (t : EventType) (p : Payload),
    h.dealId = dealId ∧ e = buildEvent signer h id index t previous p
  payload : Json.Distinct (.obj e.payload)

/-- The events are written from index `i` and hash `previous` on. -/
abbrev WrittenFrom (signer : GatewaySigner) (dealId : String) : ℕ → String → List Event → Prop :=
  HashChain.Chained Event.eventHash (Event.Written signer dealId)

variable {signer : GatewaySigner} {dealId : String} {seq : ℕ} {prevHash : String}

theorem buildEvent_written (signer : GatewaySigner) (h : EventHeader) (id : String) (n : ℕ)
    (t : EventType) (prev : String) {p : Payload} (hp : Json.Distinct (.obj p)) :
    (buildEvent signer h id n t prev p).Written signer h.dealId n prev :=
  ⟨⟨h, id, t, p, rfl, rfl⟩, hp⟩

theorem Event.Written.dealId_eq {index : ℕ} {previous : String} {e : Event}
    (h : e.Written signer dealId index previous) : e.dealId = dealId := by
  obtain ⟨header, id, t, p, hd, rfl⟩ := h.built
  exact hd

omit [Platform] in
theorem lastHash_eq (built : List Event) (prevHash : String) :
    lastHash built prevHash = HashChain.headHash Event.eventHash prevHash built := by
  unfold lastHash HashChain.headHash
  cases built.getLast? <;> rfl

theorem WrittenFrom.append {built events : List Event}
    (h : WrittenFrom signer dealId seq prevHash built)
    (h' : WrittenFrom signer dealId (seq + built.length) (lastHash built prevHash) events) :
    WrittenFrom signer dealId seq prevHash (built ++ events) := by
  rw [lastHash_eq] at h'
  exact HashChain.chained_append.2 ⟨h, h'⟩

theorem WrittenFrom.extend {built : List Event} {next : ℕ → String → Event}
    (h : WrittenFrom signer dealId seq prevHash built)
    (hn : ∀ n prev, (next n prev).Written signer dealId n prev) :
    WrittenFrom signer dealId seq prevHash (Mandate.extend seq prevHash built next) :=
  h.append (HashChain.chained_singleton.2 (hn _ _))

/-- A written chain is intact, once its signatures verify. -/
theorem WrittenFrom.intact {events : List Event} {publicKey : Bytes}
    (h : WrittenFrom signer dealId 0 genesisHash events)
    (hs : ∀ e ∈ events, ∃ raw, b64urlDecode e.signature.value = .ok raw ∧
      Platform.ed25519Verify publicKey raw e.signingBytes) : Intact events publicKey := by
  intro i e hi
  have hwritten := HashChain.chained_iff.1 h i e hi
  have hsigned := hs e (List.mem_of_getElem? hi)
  obtain ⟨header, id, t, p, -, rfl⟩ := hwritten.built
  exact ⟨rfl, rfl, rfl, hsigned, rfl, rfl⟩

/-- What the signer wrote verifies under its key. -/
theorem WrittenFrom.verifies {events : List Event} (hs : signer.Signs)
    (h : WrittenFrom signer dealId 0 genesisHash events) :
    (verifyChain events signer.publicKey).ok = true := by
  refine verifyChain_ok.2 (h.intact fun e he => ?_)
  obtain ⟨i, hi⟩ := List.getElem?_of_mem he
  obtain ⟨header, id, t, p, -, rfl⟩ := (HashChain.chained_iff.1 h i e hi).built
  exact hs.signBytes _

/-! ## Every plan is written -/

theorem CommitRequest.messages_written (req : CommitRequest) (mid : String) :
    WrittenFrom signer req.dealId seq prevHash (req.messages signer mid seq prevHash) := by
  unfold CommitRequest.messages
  cases req.content with
  | none => trivial
  | some content =>
    exact HashChain.chained_singleton.2
      (buildEvent_written signer req.header _ _ _ _ (distinct_outboundMessagePayload ..))

theorem CommitRequest.recorded_written (req : CommitRequest) (mid did : String) :
    WrittenFrom signer req.dealId seq prevHash (req.recorded signer mid did seq prevHash) := by
  refine (req.messages_written mid).extend fun n prev => ?_
  exact buildEvent_written signer req.header _ n _ prev (distinct_decisionPayload ..)

theorem TransitionRequest.messages_written (req : TransitionRequest) (mid : String) :
    WrittenFrom signer req.dealId seq prevHash (req.messages signer mid seq prevHash) := by
  unfold TransitionRequest.messages
  cases req.content with
  | none => trivial
  | some content =>
    exact HashChain.chained_singleton.2
      (buildEvent_written signer req.header _ _ _ _ (distinct_inboundMessagePayload ..))

variable {deal : Deal} {plan : CommitPlan}

theorem RequestPlan.written {req : CommitRequest}
    (h : RequestPlan signer deal seq prevHash req plan) :
    WrittenFrom signer req.dealId seq prevHash plan.events := by
  cases h with
  | decided mid did ho => exact req.recorded_written mid did
  | applied mid did id token event target ho hv he ht =>
    dsimp only
    refine (req.recorded_written mid did).extend fun n prev => ?_
    exact buildEvent_written signer req.header _ n _ prev (distinct_transitionPayload ..)
  | held mid did id aid approval ho ha =>
    dsimp only
    refine (req.recorded_written mid did).extend fun n prev => ?_
    exact buildEvent_written signer req.header _ n _ prev (distinct_approvalRequiredPayload ..)

theorem TransitionPlan.written {req : TransitionRequest} {target : DealState}
    (h : TransitionPlan signer deal seq prevHash req target plan) :
    WrittenFrom signer req.dealId seq prevHash plan.events := by
  cases h with
  | applied mid id =>
    dsimp only
    refine (req.messages_written mid).extend fun n prev => ?_
    exact buildEvent_written signer req.header _ n _ prev (distinct_transitionPayload ..)

theorem ApprovalPlan.written {approval : Approval} {req : ApprovalRequest}
    {record : Option AuthorityRecord} {revoked : Bool} {token : Option ActionToken}
    (h : ApprovalPlan signer deal approval seq prevHash req record revoked token plan) :
    WrittenFrom signer req.dealId seq prevHash plan.events := by
  cases h with
  | granted aid id approvalRecord action event target ho har hk hg he ht =>
    have hgranted : WrittenFrom signer req.dealId seq prevHash
        [req.grantedEvent signer aid seq prevHash approval.requestId approvalRecord] :=
      HashChain.chained_singleton.2
        (buildEvent_written signer req.header _ _ _ _ (distinct_approvalGrantedPayload ..))
    dsimp only
    refine hgranted.extend fun n prev => ?_
    exact buildEvent_written signer req.header _ n _ prev (distinct_transitionPayload ..)
  | denied id denyReason hv =>
    exact HashChain.chained_singleton.2
      (buildEvent_written signer req.header _ _ _ _ (distinct_approvalDeniedPayload ..))

theorem RevocationPlan.written {req : RevocationRequest}
    (h : RevocationPlan signer deal seq prevHash req plan) :
    WrittenFrom signer req.dealId seq prevHash plan.events := by
  cases h with
  | revoked id =>
    exact HashChain.chained_singleton.2
      (buildEvent_written signer req.header _ _ _ _ (distinct_revocationPayload ..))

/-! ## Every run -/

/-- Every chain of the store was written by the signer. -/
def Store.Written (signer : GatewaySigner) (s : Store) : Prop :=
  ∀ id, WrittenFrom signer id 0 genesisHash (s.eventsFor id)

/-- A commit that appends what is written next. -/
theorem Store.Written.commit {s s' : Store} (h : s.Written signer) {chain events : List Event}
    (hc : s.events.get? dealId = some chain)
    (hc' : s'.events.get? dealId = some (chain ++ events))
    (hw : WrittenFrom signer dealId chain.length (lastHash chain genesisHash) events) :
    WrittenFrom signer dealId 0 genesisHash (s'.eventsFor dealId) := by
  have hchain := h dealId
  rw [eventsFor_of_get? hc] at hchain
  rw [eventsFor_of_get? hc']
  exact hchain.append (by rwa [Nat.zero_add])

theorem LedgerOp.written {s : Store} (h : s.Written signer) (op : LedgerOp) (ids : EventIds) :
    (op.run signer ids s).Written signer := by
  intro id
  have hstep := op.dealStep s signer ids id
  generalize op.run signer ids s = s' at hstep ⊢
  cases hstep with
  | kept op s' hd he =>
    rw [he]
    exact h id
  | created createdAt s' hn hd he =>
    rw [he]
    trivial
  | requested req deal chain plan hid hd hc hp =>
    subst hid
    exact h.commit hc (Dict.get?_set_self ..) hp.written
  | transitioned req deal chain target plan hid hd hc hn ht hp hs =>
    subst hid
    exact h.commit hc (Dict.get?_set_self ..) hp.written
  | decided req deal approval decided chain token record revoked plan hid hd hc ha hs hn hi hp =>
    subst hid
    exact h.commit hc (Dict.get?_set_self ..) hp.written
  | revoked req deal chain plan hid hd hc hp =>
    subst hid
    exact h.commit hc (Dict.get?_set_self ..) hp.written

theorem written_invariant (signer : GatewaySigner) :
    (ledger signer).Invariant (Store.Written signer) where
  init := by
    rintro s rfl id
    trivial
  step := by
    rintro s s' - h ⟨op, ids, -, rfl⟩
    exact op.written h ids

end Mandate
