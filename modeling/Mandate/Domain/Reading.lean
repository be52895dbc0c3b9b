/-
  The models read from JSON.

  A model is read field by field: each field has its reader, which checks and
  normalises as the field's validator does.  `none` is a validation error.
-/
import Mandate.Domain.Approvals
import Mandate.Domain.Events
import Mandate.Lib.JsonTrips

namespace Mandate

variable [Platform]

/-! ## Fields -/

def readStr : Json → Option String
  | .str s => some s
  | _ => none

omit [Platform] in
theorem readStr_eq_some {v : Json} {s : String} : readStr v = some s ↔ v = .str s := by
  cases v <;> simp [readStr]

def readUlid (v : Json) : Option String := (readStr v).filter fun s => matchesUlid s.toList

def readStrs : Json → Option (List String)
  | .arr xs => xs.mapM readStr
  | _ => none

/-- A value that may be `null`. -/
def readOptional {α : Type} (read : Json → Option α) : Json → Option (Option α)
  | .null => some none
  | v => (read v).map some

def readAmount (v : Json) : Option ℕ :=
  (Platform.laxInt v).bind fun i => if i < 0 then none else some i.toNat

def readObject : Json → Option Json
  | .obj fields => some (.obj fields)
  | _ => none

omit [Platform] in
/-- A field without a default. -/
def required {α : Type} (payload : Dict String Json) (key : String) (read : Json → Option α) :
    Option α :=
  (payload.get? key).bind read

omit [Platform] in
/-- A field with a default. -/
def withDefault {α : Type} (payload : Dict String Json) (key : String) (read : Json → Option α)
    (default : α) : Option α :=
  match payload.get? key with
  | some v => read v
  | none => some default

/-- The members of an object. -/
def readDict : Json → Option (Dict String Json)
  | .obj fields => if h : (fields.map Prod.fst).Nodup then some ⟨fields, h⟩ else none
  | _ => none

def readList {α : Type} (read : Json → Option α) : Json → Option (List α)
  | .arr xs => xs.mapM read
  | _ => none

def readEnum {α : Type} [StrEnum α] (v : Json) : Option α := (readStr v).bind StrEnum.ofValue?

def readTimestamp (v : Json) : Option Timestamp :=
  (readStr v).bind fun s => (timestampField s).toOption

def readRfc3339 (v : Json) : Option String :=
  (readStr v).bind fun s => (validateRfc3339 s).toOption

/-- A sequence number is not negative either. -/
def readSequence : Json → Option ℕ := readAmount

/-- The lax boolean of the validation library, and the characters that are
    letters, with their upper case. -/
class TextForms where
  laxBool : Json → Option Bool
  isAlpha : Char → Bool
  upper : Char → List Char

/-- Of the letters, those of two currencies and the sharp s, whose upper case
    has two letters. -/
@[reducible] def Sample.textForms : TextForms where
  laxBool
    | .bool b => some b
    | _ => none
  isAlpha c := c ∈ ['E', 'U', 'R', 'S', 'ß']
  upper c := if c = 'ß' then ['S', 'S'] else [c]

variable [TextForms]

/-- `v.upper()`. -/
def upperCase (v : String) : String := String.ofList (v.toList.flatMap TextForms.upper)

/-- Check a currency and write it in upper case. -/
def iso4217 (v : String) : Except PyError String :=
  if v.length ≠ 3 ∨ ¬ v.toList.all TextForms.isAlpha then
    .error (.valueError s!"currency must be ISO-4217 (3 letters): {pyRepr v}")
  else .ok (upperCase v)

/-- `AuthorityRecord.model_validate` on a stored row.  A row is validated when it
    is made; the currency, which that put in upper case, is checked again. -/
def AuthorityRecord.modelValidate (row : AuthorityRecord) : Except PyError AuthorityRecord := do
  let currency ← iso4217 row.spendCap.currency
  return { row with spendCap := { row.spendCap with currency } }

def readCurrency (v : Json) : Option String := (readStr v).bind fun s => (iso4217 s).toOption

/-! ## Models -/

def SpendCap.read (v : Json) : Option SpendCap := do
  let fields ← readDict v
  return {
    currency := ← required fields "currency" readCurrency
    amountMinor := ← required fields "amount_minor" readAmount }

def SignatureBlock.read (v : Json) : Option SignatureBlock := do
  let fields ← readDict v
  return {
    algorithm := ← required fields "algorithm" readStr
    keyId := ← required fields "key_id" readStr
    value := ← required fields "value" readStr }

def AuthorityRecord.read (v : Json) : Option AuthorityRecord := do
  let fields ← readDict v
  return {
    schemaVersion := ← required fields "schema_version" readStr
    recordId := ← required fields "record_id" readUlid
    principalId := ← required fields "principal_id" readUlid
    agentId := ← required fields "agent_id" readUlid
    counterpartyId := ← required fields "counterparty_id" (readOptional readUlid)
    purpose := ← required fields "purpose" readStr
    allowedActions := ← required fields "allowed_actions" (readList readEnum)
    prohibitedActions := ← required fields "prohibited_actions" (readList readEnum)
    spendCap := ← required fields "spend_cap" SpendCap.read
    maxNegotiationRounds := ← required fields "max_negotiation_rounds" Platform.laxInt
    acceptanceWindowHours := ← required fields "acceptance_window_hours" Platform.laxInt
    silentAcceptance := ← withDefault fields "silent_acceptance" TextForms.laxBool false
    disclosureFields := ← required fields "disclosure_fields" readStrs
    requiresHumanApprovalFor := ← required fields "requires_human_approval_for" (readList readEnum)
    issuedAt := ← required fields "issued_at" readTimestamp
    notBefore := ← required fields "not_before" readTimestamp
    expiresAt := ← required fields "expires_at" readTimestamp
    parentRecordId := ← required fields "parent_record_id" (readOptional readUlid)
    status := ← required fields "status" readEnum
    nonce := ← required fields "nonce" readStr
    signature := ← required fields "signature" SignatureBlock.read }

def Revocation.read (v : Json) : Option Revocation := do
  let fields ← readDict v
  return {
    schemaVersion := ← required fields "schema_version" readStr
    revocationId := ← required fields "revocation_id" readUlid
    recordId := ← required fields "record_id" readUlid
    revokedAt := ← required fields "revoked_at" readTimestamp
    signature := ← required fields "signature" SignatureBlock.read }

def ApprovalRecord.read (v : Json) : Option ApprovalRecord := do
  let fields ← readDict v
  return {
    schemaVersion := ← required fields "schema_version" readStr
    approvalRecordId := ← required fields "approval_record_id" readUlid
    dealId := ← required fields "deal_id" readUlid
    requestId := ← required fields "request_id" readUlid
    parentAuthorityRecordId := ← required fields "parent_authority_record_id" readUlid
    action := ← required fields "action" readStr
    amountMinor := ← required fields "amount_minor" (readOptional readAmount)
    currency := ← required fields "currency" readStr
    proposalDigest := ← required fields "proposal_digest" readStr
    issuedAt := ← required fields "issued_at" readTimestamp
    signature := ← required fields "signature" SignatureBlock.read }

def Approval.read (v : Json) : Option Approval := do
  let fields ← readDict v
  let amountMinor ← required fields "amount_minor" (readOptional readAmount)
  return {
    approvalId := ← required fields "approval_id" readUlid
    dealId := ← required fields "deal_id" readUlid
    requestId := ← required fields "request_id" readUlid
    authorityRecordId := ← required fields "authority_record_id" readUlid
    action := ← required fields "action" readStr
    amountMinor := amountMinor.map fun n : ℕ => (n : ℤ)
    currency := ← required fields "currency" readStr
    proposalDigest := ← required fields "proposal_digest" readStr
    reasonCode := ← required fields "reason_code" readEnum
    status := ← required fields "status" readEnum
    decidedBy := ← required fields "decided_by" (readOptional readStr)
    decidedAt := ← required fields "decided_at" (readOptional readRfc3339)
    commandId := ← required fields "command_id" (readOptional readUlid)
    createdAt := ← required fields "created_at" readRfc3339 }

def EventSignature.read (v : Json) : Option EventSignature := do
  let fields ← readDict v
  return {
    algorithm := ← required fields "algorithm" readStr
    keyId := ← required fields "key_id" readStr
    value := ← required fields "value" readStr }

/-- The fields of an event, and then its validators. -/
def Event.read (v : Json) : Option Event := do
  let fields ← readDict v
  let event : Event := {
    eventId := ← required fields "event_id" readStr
    dealId := ← required fields "deal_id" readStr
    sequenceNumber := ← required fields "sequence_number" readSequence
    eventType := ← required fields "event_type" readEnum
    actorKind := ← required fields "actor_kind" readEnum
    actorId := ← required fields "actor_id" readStr
    authorityRecordId := ← required fields "authority_record_id" (readOptional readStr)
    previousEventHash := ← required fields "previous_event_hash" readStr
    payloadHash := ← required fields "payload_hash" readStr
    eventHash := ← required fields "event_hash" readStr
    payload := (← required fields "payload" readDict).entries
    occurredAt := ← required fields "occurred_at" readStr
    recordedAt := ← required fields "recorded_at" readStr
    signature := ← required fields "signature" EventSignature.read }
  event.validate.toOption

end Mandate
