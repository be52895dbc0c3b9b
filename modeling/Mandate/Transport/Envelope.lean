/-
  The signed wire envelope: its payload models, its signature and its
  freshness.

  An envelope authenticates which gateway sent a message.  Its payload is a
  JSON object that is read against the model of the envelope's kind.
-/
import Mandate.Crypto.Signing
import Mandate.Domain.Reading

namespace Mandate

variable [Platform]

inductive MessageKind where
  | proposal | counterpartyEvent | receipt
deriving DecidableEq, Repr

def MessageKind.value : MessageKind → String
  | proposal => "proposal"
  | counterpartyEvent => "counterparty_event"
  | receipt => "receipt"

instance : StrEnum MessageKind where
  all := [.proposal, .counterpartyEvent, .receipt]
  value := MessageKind.value
  mem_all k := by cases k <;> decide
  nodup := by decide

omit [Platform] in
theorem MessageKind.value_inj {k k' : MessageKind} (h : k.value = k'.value) : k = k' :=
  StrEnum.value_inj h

inductive ReceiptOutcome where
  | accepted | rejected
deriving DecidableEq, Repr

def ReceiptOutcome.value : ReceiptOutcome → String
  | accepted => "accepted"
  | rejected => "rejected"

instance : StrEnum ReceiptOutcome where
  all := [.accepted, .rejected]
  value := ReceiptOutcome.value
  mem_all o := by cases o <;> decide
  nodup := by decide

/-! ## Payloads -/

/-- The untrusted proposal part of a message. -/
structure ProposalPayload where
  action : String
  dealId : String
  amountMinor : Option ℕ := none
  currency : String
  disclosureFields : List String := []
  idempotencyKey : String
  content : String := ""

/-- A boundary event from the peer gateway. -/
structure CounterpartyEventPayload where
  dealId : String
  event : String
  note : String := ""

/-- A receiver's answer to one message. -/
structure ReceiptPayload where
  respondsTo : String
  outcome : ReceiptOutcome
  status : ℤ
  events : List String := []
  reason : Option String := none
  decision : Option Json := none

def ReceiptPayload.fields (p : ReceiptPayload) : Dict String Json :=
  { entries := [("responds_to", .str p.respondsTo), ("outcome", .str p.outcome.value),
      ("status", .int p.status), ("events", .arr (p.events.map .str)), ("reason", optStr p.reason),
      ("decision", p.decision.getD .null)]
    nodup := by simp }

/-- A validated payload of some kind. -/
inductive MessagePayload where
  | proposal (p : ProposalPayload)
  | counterpartyEvent (p : CounterpartyEventPayload)
  | receipt (p : ReceiptPayload)

/-! ## Reading a payload -/

def maxNoteChars : ℕ := 4096

def readNote (v : Json) : Option String := (readStr v).filter fun s => s.length ≤ maxNoteChars

def ProposalPayload.read (payload : Dict String Json) : Option ProposalPayload := do
  return {
    action := ← required payload "action" readStr
    dealId := ← required payload "deal_id" readUlid
    amountMinor := ← withDefault payload "amount_minor" (readOptional readAmount) none
    currency := ← required payload "currency" readStr
    disclosureFields := ← withDefault payload "disclosure_fields" readStrs []
    idempotencyKey := ← required payload "idempotency_key" readUlid
    content := ← withDefault payload "content" readStr "" }

def CounterpartyEventPayload.read (payload : Dict String Json) :
    Option CounterpartyEventPayload := do
  return {
    dealId := ← required payload "deal_id" readUlid
    event := ← required payload "event" readStr
    note := ← withDefault payload "note" readNote "" }

def ReceiptPayload.read (payload : Dict String Json) : Option ReceiptPayload := do
  return {
    respondsTo := ← required payload "responds_to" readUlid
    outcome := ← required payload "outcome" fun v => (readStr v).bind StrEnum.ofValue?
    status := ← required payload "status" Platform.laxInt
    events := ← withDefault payload "events" readStrs []
    reason := ← withDefault payload "reason" (readOptional readStr) none
    decision := ← withDefault payload "decision" (readOptional readObject) none }

/-! ## The envelope -/

def schemaVersion : String := "0.1"

/-- The signed wire message. -/
structure WireEnvelope where
  schemaVersion : String
  messageId : String
  idempotencyKey : String
  senderId : String
  recipientId : String
  kind : MessageKind
  payload : Dict String Json
  issuedAt : Timestamp
  signature : SignatureBlock

/-- Every field but `signature`. -/
def WireEnvelope.unsignedFields (env : WireEnvelope) : List (String × Json) :=
  [("schema_version", .str env.schemaVersion), ("message_id", .str env.messageId),
   ("idempotency_key", .str env.idempotencyKey), ("sender_id", .str env.senderId),
   ("recipient_id", .str env.recipientId), ("kind", .str env.kind.value),
   ("payload", .obj env.payload.entries), ("issued_at", .str env.issuedAt.text)]

def WireEnvelope.toJson (env : WireEnvelope) : Json :=
  .obj (env.unsignedFields ++ [("signature", env.signature.toJson)])

omit [Platform] in
theorem WireEnvelope.nodup_toJson (env : WireEnvelope) :
    ((env.unsignedFields ++ [("signature", env.signature.toJson)]).map Prod.fst).Nodup := by
  simp [unsignedFields]

def envelopeSigningPayload (env : WireEnvelope) : Bytes :=
  Json.canonicalBytes (.obj env.unsignedFields)

/-- The digest of the whole envelope, signature included. -/
def envelopeFingerprint (env : WireEnvelope) : String := canonicalSha256Hex env.toJson

/-- A gateway's wire identity; a peer's private key is not held. -/
structure GatewayIdentity where
  identityId : String
  publicKey : Bytes
  privateKey : Option Bytes := none

/-- Mint and sign an envelope. -/
def makeEnvelope (kind : MessageKind) (payload : Dict String Json) (sender : GatewayIdentity)
    (recipientId messageId idempotencyKey issuedAt : String) : Except PyError WireEnvelope :=
  match sender.privateKey with
  | none => .error (.valueError "cannot sign with a verify-only identity")
  | some privateKey => do
    let issuedAt ← timestampField issuedAt
    let provisional : WireEnvelope :=
      { schemaVersion, messageId, idempotencyKey, senderId := sender.identityId, recipientId, kind,
        payload, issuedAt, signature := ⟨algorithm, sender.identityId, ""⟩ }
    return { provisional with
      signature := ⟨algorithm, sender.identityId,
        sign privateKey (envelopeSigningPayload provisional)⟩ }

/-- The reason an envelope fails its check against a registered peer. -/
def verifyEnvelope (env : WireEnvelope) (peer : GatewayIdentity) : Except String Unit :=
  if env.schemaVersion ≠ schemaVersion then
    .error s!"unsupported schema_version {pyRepr env.schemaVersion}"
  else if env.senderId ≠ peer.identityId then
    .error (s!"envelope sender_id {env.senderId} does not match registered peer " ++
      peer.identityId)
  else if env.signature.algorithm ≠ algorithm then
    .error (s!"algorithm spoof: expected {pyRepr algorithm}, got " ++
      pyRepr env.signature.algorithm)
  else if env.signature.keyId ≠ peer.identityId then
    .error s!"key_id {pyRepr env.signature.keyId} is not this peer's identity key"
  else match b64urlDecode env.signature.value with
    | .error (.valueError msg) => .error s!"signature is not valid base64url: {msg}"
    | .error _ => .error "signature is not valid base64url"
    | .ok raw =>
      if Platform.ed25519Verify peer.publicKey raw (envelopeSigningPayload env) then .ok ()
      else .error "signature does not verify against the peer's registered key"

/-- First-seen freshness: `issued_at` is too far from `now`, either way. -/
def envelopeIsStale (env : WireEnvelope) (now : String) (maxAgeSeconds : ℤ) : Bool :=
  match (Datetime.fromisoformat now).bind Datetime.instant? with
  | some received => |received - env.issuedAt.instant| > maxAgeSeconds * Datetime.second
  | none => true

/-- The payload read against the model of the envelope's kind. -/
def parsePayload (env : WireEnvelope) : Except String MessagePayload :=
  let read : Option MessagePayload := match env.kind with
    | .proposal => (ProposalPayload.read env.payload).map .proposal
    | .counterpartyEvent => (CounterpartyEventPayload.read env.payload).map .counterpartyEvent
    | .receipt => (ReceiptPayload.read env.payload).map .receipt
  match read with
  | some payload => .ok payload
  | none => .error s!"payload is not a valid {env.kind.value} payload"

/-- The payload of a peer's answer to our message, once every check holds. -/
def verifyReceipt (receipt : WireEnvelope) (peer : GatewayIdentity) (expectedRespondsTo : String)
    (now : Option String) (maxAgeSeconds : Option ℤ) : Except String ReceiptPayload :=
  if receipt.kind ≠ .receipt then
    .error s!"envelope kind {pyRepr receipt.kind.value} is not a receipt"
  else do
    verifyEnvelope receipt peer
    match ← parsePayload receipt with
    | .receipt payload =>
      if payload.respondsTo ≠ expectedRespondsTo then
        .error (s!"receipt responds to {payload.respondsTo}, not our message " ++
          s!"{expectedRespondsTo}; it is not an answer to this message")
      else match maxAgeSeconds, now with
        | none, _ => .ok payload
        | some _, none => .error ("max_age_seconds was supplied without now; the freshness " ++
            "check cannot be skipped")
        | some maxAge, some now =>
          if envelopeIsStale receipt now maxAge then
            .error (s!"receipt is stale: issued_at is outside the {maxAge}s freshness window")
          else .ok payload
    | _ => .error ("payload did not parse as a receipt payload " ++
        s!"(kind {pyRepr receipt.kind.value})")

end Mandate
