/-
  Ledger events: the chained, signed record of what happened to a deal.

  The payload is the JSON object of the source.  `payloadHash` and `eventHash`
  are fields as in the source; `canonicalForm` is what `eventHash` and the
  signature cover.
-/
import Mandate.Domain.Input
import Mandate.Domain.Validation

namespace Mandate

variable [Platform]

def genesisHash : String := String.ofList (List.replicate 64 '0')

inductive EventType where
  | policyDecision | stateTransition | approval | message | artifact | payment | revocation
deriving DecidableEq, Repr

def EventType.value : EventType → String
  | policyDecision => "policy_decision"
  | stateTransition => "state_transition"
  | approval => "approval"
  | message => "message"
  | artifact => "artifact"
  | payment => "payment"
  | revocation => "revocation"

instance : StrEnum EventType where
  all := [.policyDecision, .stateTransition, .approval, .message, .artifact, .payment, .revocation]
  value := EventType.value
  mem_all t := by cases t <;> decide
  nodup := by decide

structure EventSignature where
  algorithm : String
  keyId : String
  value : String
deriving DecidableEq

structure Event where
  eventId : String
  dealId : String
  sequenceNumber : ℕ
  eventType : EventType
  actorKind : ActorKind
  actorId : String
  authorityRecordId : Option String
  previousEventHash : String
  payloadHash : String
  eventHash : String
  payload : List (String × Json)
  occurredAt : String
  recordedAt : String
  signature : EventSignature

/-- Every field but `signature` and `event_hash`. -/
def Event.canonicalForm (e : Event) : Json :=
  .obj [("event_id", .str e.eventId), ("deal_id", .str e.dealId),
    ("sequence_number", .int e.sequenceNumber), ("event_type", .str e.eventType.value),
    ("actor_kind", .str e.actorKind.value), ("actor_id", .str e.actorId),
    ("authority_record_id", optStr e.authorityRecordId),
    ("previous_event_hash", .str e.previousEventHash), ("payload_hash", .str e.payloadHash),
    ("payload", .obj e.payload), ("occurred_at", .str e.occurredAt),
    ("recorded_at", .str e.recordedAt)]

def Event.signingBytes (e : Event) : Bytes := Json.canonicalBytes e.canonicalForm

/-- `_HASH_RE`; its `$` also matches before a final newline. -/
def matchesHash (cs : List Char) : Bool :=
  let body := if cs.getLast? = some '\n' then cs.dropLast else cs
  body.length = 64 && body.all fun c => c ∈ "0123456789abcdef".toList

def validateHash (v : String) : Except PyError String :=
  if matchesHash v.toList then .ok v
  else .error (.valueError s!"not a 64-char lowercase hex hash: {pyRepr v}")

/-- The validators of an event: its identifiers, its hashes, and that the
    hashes are those of its content. -/
def Event.validate (e : Event) : Except PyError Event := do
  let _ ← validateUlid e.eventId
  let _ ← validateUlid e.dealId
  match e.authorityRecordId with
  | some id => let _ ← validateUlid id
  | none => pure ()
  let _ ← validateHash e.previousEventHash
  let _ ← validateHash e.payloadHash
  let _ ← validateHash e.eventHash
  if e.payloadHash ≠ canonicalSha256Hex (.obj e.payload) then
    throw (.valueError "payload_hash does not match the canonical payload")
  if e.eventHash ≠ Platform.sha256Hex e.signingBytes then
    throw (.valueError "event_hash does not match the canonical event form")
  return e

/-- What the validators of an event accept. -/
structure Event.Valid (e : Event) : Prop where
  eventId : matchesUlid e.eventId.toList
  dealId : matchesUlid e.dealId.toList
  authorityRecordId : ∀ id ∈ e.authorityRecordId, matchesUlid id.toList
  hashes : matchesHash e.previousEventHash.toList ∧ matchesHash e.payloadHash.toList ∧
    matchesHash e.eventHash.toList
  payloadHash : e.payloadHash = canonicalSha256Hex (.obj e.payload)
  eventHash : e.eventHash = Platform.sha256Hex e.signingBytes

theorem Event.validate_ok {e e' : Event} : e.validate = .ok e' ↔ e.Valid ∧ e = e' := by
  have hulid : ∀ {s t : String}, validateUlid s = .ok t ↔ matchesUlid s.toList ∧ s = t := by
    intro s t
    unfold validateUlid
    split_ifs with h <;> simp [h]
  have hhash : ∀ {s t : String}, validateHash s = .ok t ↔ matchesHash s.toList ∧ s = t := by
    intro s t
    unfold validateHash
    split_ifs with h <;> simp [h]
  have hchecks : (do
      if e.payloadHash ≠ canonicalSha256Hex (.obj e.payload) then
        throw (.valueError "payload_hash does not match the canonical payload")
      if e.eventHash ≠ Platform.sha256Hex e.signingBytes then
        throw (.valueError "event_hash does not match the canonical event form")
      return e : Except PyError Event) = .ok e' ↔
      e.payloadHash = canonicalSha256Hex (.obj e.payload) ∧
        e.eventHash = Platform.sha256Hex e.signingBytes ∧ e = e' := by
    by_cases hp : e.payloadHash = canonicalSha256Hex (.obj e.payload)
    · by_cases he : e.eventHash = Platform.sha256Hex e.signingBytes
      · simp [hp, he, pure, Except.pure]
      · simp [hp, he, throw, throwThe, MonadExceptOf.throw, bind, Except.bind]
    · simp [hp, throw, throwThe, MonadExceptOf.throw, bind, Except.bind]
  unfold Event.validate
  cases ha : e.authorityRecordId with
  | none =>
    simp only [bind_ok, hulid, hhash, hchecks]
    constructor
    · rintro ⟨_, ⟨h₁, rfl⟩, _, ⟨h₂, rfl⟩, _, ⟨h₃, rfl⟩, _, ⟨h₄, rfl⟩, _, ⟨h₅, rfl⟩, hp, he, h⟩
      exact ⟨⟨h₁, h₂, by simp [ha], ⟨h₃, h₄, h₅⟩, hp, he⟩, h⟩
    · rintro ⟨⟨h₁, h₂, -, ⟨h₃, h₄, h₅⟩, hp, he⟩, h⟩
      exact ⟨_, ⟨h₁, rfl⟩, _, ⟨h₂, rfl⟩, _, ⟨h₃, rfl⟩, _, ⟨h₄, rfl⟩, _, ⟨h₅, rfl⟩, hp, he, h⟩
  | some id =>
    simp only [bind_ok, hulid, hhash, hchecks]
    constructor
    · rintro ⟨_, ⟨h₁, rfl⟩, _, ⟨h₂, rfl⟩, _, ⟨h₀, rfl⟩, _, ⟨h₃, rfl⟩, _, ⟨h₄, rfl⟩, _, ⟨h₅, rfl⟩,
        hp, he, h⟩
      exact ⟨⟨h₁, h₂, by simp [ha, h₀], ⟨h₃, h₄, h₅⟩, hp, he⟩, h⟩
    · rintro ⟨⟨h₁, h₂, h₀, ⟨h₃, h₄, h₅⟩, hp, he⟩, h⟩
      exact ⟨_, ⟨h₁, rfl⟩, _, ⟨h₂, rfl⟩, _, ⟨h₀ id ha, rfl⟩, _, ⟨h₃, rfl⟩, _, ⟨h₄, rfl⟩, _,
        ⟨h₅, rfl⟩, hp, he, h⟩

/-- A member of the payload. -/
def Event.field (e : Event) (key : String) : Option Json := Dict.getEntries key e.payload

end Mandate
