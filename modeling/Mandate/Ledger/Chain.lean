/-
  Event-chain helpers: event construction, event ids, and the recheck of an
  allowed action against the stored deal.
-/
import Mandate.Ledger.Payloads

namespace Mandate

variable [Platform]

/-- The members all events of one commit share. -/
structure EventHeader where
  dealId : String
  actorKind : ActorKind
  actorId : String
  authorityRecordId : Option String
  occurredAt : String
  recordedAt : String

/-- The fresh ids of one commit, in the order they are drawn. -/
abbrev EventIds := ℕ → String

/-- A fresh event id.  Its clock part needs a readable `recorded_at` with an
    offset; the id itself is clock and entropy, and is supplied. -/
def makeEventId (recordedAt id : String) : Except PyError String :=
  match Datetime.fromisoformat (replaceZ recordedAt) with
  | none => .error (.valueError s!"Invalid isoformat string: {pyRepr (replaceZ recordedAt)}")
  | some dt =>
    match dt.instant? with
    | none => .error (.valueError s!"timestamp must carry a UTC offset: {pyRepr recordedAt}")
    | some i => if Datetime.InRange i then .ok id else .error .overflowError

/-- A commit time that event ids can be stamped with. -/
def Stampable (recordedAt : String) : Prop :=
  ∃ dt i, Datetime.fromisoformat (replaceZ recordedAt) = some dt ∧ dt.instant? = some i ∧
    Datetime.InRange i

theorem makeEventId_eq_ok {recordedAt id id' : String} :
    makeEventId recordedAt id = .ok id' ↔ Stampable recordedAt ∧ id = id' := by
  unfold makeEventId Stampable
  cases hd : Datetime.fromisoformat (replaceZ recordedAt) with
  | none => simp
  | some dt =>
    cases hi : dt.instant? with
    | none => simp [hi]
    | some i =>
      simp only [Option.some.injEq, exists_and_left, exists_eq_left', hi]
      split_ifs with hr
      · simp only [Except.ok.injEq, iff_true_intro hr, true_and]
      · simp only [iff_false_intro hr, false_and]

/-- Construct a consistent, signed event. -/
def buildEvent (signer : GatewaySigner) (h : EventHeader) (eventId : String)
    (sequenceNumber : ℕ) (eventType : EventType) (previousEventHash : String)
    (payload : Payload) : Event :=
  let unsigned : Event :=
    { eventId, sequenceNumber, eventType, previousEventHash, payload
      dealId := h.dealId
      actorKind := h.actorKind
      actorId := h.actorId
      authorityRecordId := h.authorityRecordId
      occurredAt := h.occurredAt
      recordedAt := h.recordedAt
      payloadHash := canonicalSha256Hex (.obj payload)
      eventHash := ""
      signature := ⟨algorithm, signer.keyId, ""⟩ }
  { unsigned with
    eventHash := Platform.sha256Hex unsigned.signingBytes
    signature := ⟨algorithm, signer.keyId, signer.signBytes unsigned.signingBytes⟩ }

/-- The hash the next event links to: that of the last event built, if any. -/
def lastHash (built : List Event) (prevHash : String) : String :=
  match built.getLast? with
  | some e => e.eventHash
  | none => prevHash

/-- Append the event that comes next after `built`, on a chain that stands at
    `seq` and `prevHash` before it. -/
def extend (seq : ℕ) (prevHash : String) (built : List Event) (next : ℕ → String → Event) :
    List Event :=
  built ++ [next (seq + built.length) (lastHash built prevHash)]

/-- Recheck an allowed action against the stored deal: the event to apply,
    `none` when the decision applies none, or the reason to abort. -/
def planTransition (deal : Deal) (action : String) (outcome : Outcome) :
    Except String (Option DealEvent) :=
  if outcome ≠ .allow then .ok none
  else match (StrEnum.ofValue? action : Option ActionToken) with
    | none => .error "stale_state: action not in the closed vocabulary"
    | some token =>
      match actionEvents token with
      | none => .ok none
      | some event =>
        if transitionFor deal.state event = none then
          .error (s!"stale_state: action {pyRepr action} is not valid from stored state " ++
            deal.state.value)
        else .ok (some event)

/-! ## Views of built events -/

section
omit [Platform]

/-- An event of another type is no decision, and so for the other views. -/
theorem decision?_of_ne {e : Event} (ht : e.eventType ≠ .policyDecision) :
    e.decision? = none := if_neg ht

theorem transition?_of_ne {e : Event} (ht : e.eventType ≠ .stateTransition) :
    e.transition? = none := if_neg ht

theorem approval?_of_ne {e : Event} (ht : e.eventType ≠ .approval) :
    e.approval? = none := if_neg ht

end

variable (signer : GatewaySigner) (h : EventHeader) (id : String) (n : ℕ) (prev : String)

@[simp] theorem buildEvent_eventType (t : EventType) (p : Payload) :
    (buildEvent signer h id n t prev p).eventType = t := rfl

@[simp] theorem buildEvent_payload (t : EventType) (p : Payload) :
    (buildEvent signer h id n t prev p).payload = p := rfl

@[simp] theorem buildEvent_sequenceNumber (t : EventType) (p : Payload) :
    (buildEvent signer h id n t prev p).sequenceNumber = n := rfl

theorem decision?_built (requestId action : String) (d : PolicyDecision) (amt : Option ℤ)
    (key digest : String) :
    (buildEvent signer h id n .policyDecision prev
      (decisionPayload requestId action d amt key digest)).decision? =
    some ⟨requestId, action, d.outcome, d.reasonCode, d.inputDigest, amt, key, digest⟩ := by
  have ho : StrEnum.ofValue? d.outcome.value = some d.outcome := StrEnum.ofValue?_value _
  have hr : StrEnum.ofValue? d.reasonCode.value = some d.reasonCode := StrEnum.ofValue?_value _
  cases amt <;>
    simp [Event.decision?, Event.str?, Event.int?, Event.field, decisionPayload, Dict.getEntries,
      optInt, ho, hr]

/-- The request a transition names. -/
def Cause.requestId? : Cause → Option String
  | .request requestId _ => some requestId
  | .command _ _ => none

theorem transition?_built (cause : Cause) (event : DealEvent) (deal newDeal : Deal)
    (amt : Option ℤ) :
    (buildEvent signer h id n .stateTransition prev
      (transitionPayload cause event deal newDeal amt)).transition? =
    some ⟨event, deal.state, newDeal.state, amt, cause.requestId?⟩ := by
  have he : StrEnum.ofValue? event.value = some event := StrEnum.ofValue?_value _
  have hf : StrEnum.ofValue? deal.state.value = some deal.state := StrEnum.ofValue?_value _
  have ht : StrEnum.ofValue? newDeal.state.value = some newDeal.state := StrEnum.ofValue?_value _
  cases amt <;> cases cause with
  | request requestId action =>
    simp [Event.transition?, Event.str?, Event.int?, Event.field, transitionPayload, Cause.fields,
      Dict.getEntries, optInt, he, hf, ht, Cause.requestId?]
  | command commandId note =>
    by_cases hn : note = "" <;>
      simp [Event.transition?, Event.str?, Event.int?, Event.field, transitionPayload, Cause.fields,
        Dict.getEntries, optInt, he, hf, ht, hn, Cause.requestId?]

theorem approval?_built (operation : ApprovalOperation) (requestId action : String)
    (amt : Option ℤ) (rest : Payload) :
    (buildEvent signer h id n .approval prev
      (approvalHead operation requestId action amt ++ rest)).approval? =
    some ⟨operation, requestId, action, amt⟩ := by
  have ho : StrEnum.ofValue? operation.value = some operation := StrEnum.ofValue?_value _
  cases amt <;>
    simp [Event.approval?, Event.str?, Event.int?, Event.field, approvalHead, Dict.getEntries,
      optInt, ho]

end Mandate
