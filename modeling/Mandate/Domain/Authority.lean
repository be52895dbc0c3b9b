/-
  Authority records: the signed, scoped, revocable mandate of an agent, and the
  claim about one that a boundary hands to the policy engine.

  Identifiers are strings; the ULID check of the source restricts them further
  and nothing here depends on it.  Validated timestamps are `Timestamp`s and
  validated amounts are natural numbers, so an unreadable time or a negative
  cap cannot be built.  `toJson` is `model_dump(mode="json")`.
-/
import Mandate.Lib.Datetime
import Mandate.Lib.Json
import Mandate.Lib.StrEnum

namespace Mandate

/-- The closed action vocabulary. -/
inductive ActionToken where
  | requestQuote | counteroffer | acceptAgreement | startWork | proposeChange
  | approveChangeOrder | claimCompletion | acceptCompletion | openDispute
  | initiatePayment | capturePayment | cancelDeal | resolveDispute
deriving DecidableEq, Repr

def ActionToken.value : ActionToken → String
  | requestQuote => "request_quote"
  | counteroffer => "counteroffer"
  | acceptAgreement => "accept_agreement"
  | startWork => "start_work"
  | proposeChange => "propose_change"
  | approveChangeOrder => "approve_change_order"
  | claimCompletion => "claim_completion"
  | acceptCompletion => "accept_completion"
  | openDispute => "open_dispute"
  | initiatePayment => "initiate_payment"
  | capturePayment => "capture_payment"
  | cancelDeal => "cancel_deal"
  | resolveDispute => "resolve_dispute"

instance : StrEnum ActionToken where
  all := [.requestQuote, .counteroffer, .acceptAgreement, .startWork, .proposeChange,
    .approveChangeOrder, .claimCompletion, .acceptCompletion, .openDispute, .initiatePayment,
    .capturePayment, .cancelDeal, .resolveDispute]
  value := ActionToken.value
  mem_all a := by cases a <;> decide
  nodup := by decide

/-- The recorded or resolved status of an authority record. -/
inductive RecordStatus where
  | active | revoked | expired
deriving DecidableEq, Repr

def RecordStatus.value : RecordStatus → String
  | active => "active"
  | revoked => "revoked"
  | expired => "expired"

instance : StrEnum RecordStatus where
  all := [.active, .revoked, .expired]
  value := RecordStatus.value
  mem_all s := by cases s <;> decide
  nodup := by decide

structure SpendCap where
  currency : String
  amountMinor : ℕ
deriving DecidableEq

def SpendCap.toJson (c : SpendCap) : Json :=
  .obj [("currency", .str c.currency), ("amount_minor", .int c.amountMinor)]

structure SignatureBlock where
  algorithm : String
  keyId : String
  value : String
deriving DecidableEq

def SignatureBlock.toJson (s : SignatureBlock) : Json :=
  .obj [("algorithm", .str s.algorithm), ("key_id", .str s.keyId), ("value", .str s.value)]

/-- An optional string, `null` when absent. -/
def optStr : Option String → Json
  | some s => .str s
  | none => .null

/-- An optional integer, `null` when absent. -/
def optInt : Option ℤ → Json
  | some i => .int i
  | none => .null

theorem optInt_inj {a b : Option ℤ} (h : Json.normalize (optInt a) = Json.normalize (optInt b)) :
    a = b := by
  cases a <;> cases b <;> simp_all [optInt, Json.normalize]

theorem optStr_inj {a b : Option String}
    (h : Json.normalize (optStr a) = Json.normalize (optStr b)) : a = b := by
  cases a <;> cases b <;> simp_all [optStr, Json.normalize]

/-- The signed mandate. -/
structure AuthorityRecord where
  schemaVersion : String
  recordId : String
  principalId : String
  agentId : String
  counterpartyId : Option String
  purpose : String
  allowedActions : List ActionToken
  prohibitedActions : List ActionToken
  spendCap : SpendCap
  maxNegotiationRounds : ℤ
  acceptanceWindowHours : ℤ
  silentAcceptance : Bool := false
  disclosureFields : List String
  requiresHumanApprovalFor : List ActionToken
  issuedAt : Timestamp
  notBefore : Timestamp
  expiresAt : Timestamp
  parentRecordId : Option String
  status : RecordStatus
  nonce : String
  signature : SignatureBlock

/-- Every field but `signature`. -/
def AuthorityRecord.unsignedFields (r : AuthorityRecord) : List (String × Json) :=
  [("schema_version", .str r.schemaVersion), ("record_id", .str r.recordId),
   ("principal_id", .str r.principalId), ("agent_id", .str r.agentId),
   ("counterparty_id", optStr r.counterpartyId), ("purpose", .str r.purpose),
   ("allowed_actions", .arr (r.allowedActions.map fun a => .str a.value)),
   ("prohibited_actions", .arr (r.prohibitedActions.map fun a => .str a.value)),
   ("spend_cap", r.spendCap.toJson), ("max_negotiation_rounds", .int r.maxNegotiationRounds),
   ("acceptance_window_hours", .int r.acceptanceWindowHours),
   ("silent_acceptance", .bool r.silentAcceptance),
   ("disclosure_fields", .arr (r.disclosureFields.map .str)),
   ("requires_human_approval_for", .arr (r.requiresHumanApprovalFor.map fun a => .str a.value)),
   ("issued_at", .str r.issuedAt.text), ("not_before", .str r.notBefore.text),
   ("expires_at", .str r.expiresAt.text), ("parent_record_id", optStr r.parentRecordId),
   ("status", .str r.status.value), ("nonce", .str r.nonce)]

def AuthorityRecord.toJson (r : AuthorityRecord) : Json :=
  .obj (r.unsignedFields ++ [("signature", r.signature.toJson)])

/-- A signed fact revoking one authority record. -/
structure Revocation where
  schemaVersion : String
  revocationId : String
  recordId : String
  revokedAt : Timestamp
  signature : SignatureBlock

/-- Every field but `signature`. -/
def Revocation.unsignedFields (r : Revocation) : List (String × Json) :=
  [("schema_version", .str r.schemaVersion), ("revocation_id", .str r.revocationId),
   ("record_id", .str r.recordId), ("revoked_at", .str r.revokedAt.text)]

def Revocation.toJson (r : Revocation) : Json :=
  .obj (r.unsignedFields ++ [("signature", r.signature.toJson)])

/-! ## What canonical forms determine -/

theorem SpendCap.eq_of_normalize {c d : SpendCap}
    (h : Json.normalize c.toJson = Json.normalize d.toJson) : c = d := by
  have key := Json.member_inj (by simp) (by simp) h
  have hc := Json.normalize_str_inj (Option.some.inj (key "currency"))
  have ha := Json.normalize_int_inj (Option.some.inj (key "amount_minor"))
  cases c
  cases d
  simp_all

theorem SignatureBlock.eq_of_normalize {s t : SignatureBlock}
    (h : Json.normalize s.toJson = Json.normalize t.toJson) : s = t := by
  have key := Json.member_inj (by simp) (by simp) h
  have ha := Json.normalize_str_inj (Option.some.inj (key "algorithm"))
  have hk := Json.normalize_str_inj (Option.some.inj (key "key_id"))
  have hv := Json.normalize_str_inj (Option.some.inj (key "value"))
  cases s
  cases t
  simp_all

theorem actions_inj {as bs : List ActionToken}
    (h : Json.normalize (.arr (as.map fun a => .str a.value)) =
      Json.normalize (.arr (bs.map fun a => .str a.value))) : as = bs :=
  Json.arr_eq_of_normalize (fun _ _ h => StrEnum.value_inj (Json.normalize_str_inj h)) h

/-- Records with one canonical form are equal. -/
theorem AuthorityRecord.eq_of_normalize {r r' : AuthorityRecord}
    (h : Json.normalize r.toJson = Json.normalize r'.toJson) : r = r' := by
  have key := Json.member_inj (by simp [unsignedFields]) (by simp [unsignedFields]) h
  have h₁ := Json.normalize_str_inj (Option.some.inj (key "schema_version"))
  have h₂ := Json.normalize_str_inj (Option.some.inj (key "record_id"))
  have h₃ := Json.normalize_str_inj (Option.some.inj (key "principal_id"))
  have h₄ := Json.normalize_str_inj (Option.some.inj (key "agent_id"))
  have h₅ := optStr_inj (Option.some.inj (key "counterparty_id"))
  have h₆ := Json.normalize_str_inj (Option.some.inj (key "purpose"))
  have h₇ := actions_inj (Option.some.inj (key "allowed_actions"))
  have h₈ := actions_inj (Option.some.inj (key "prohibited_actions"))
  have h₉ := SpendCap.eq_of_normalize (Option.some.inj (key "spend_cap"))
  have h₁₀ := Json.normalize_int_inj (Option.some.inj (key "max_negotiation_rounds"))
  have h₁₁ := Json.normalize_int_inj (Option.some.inj (key "acceptance_window_hours"))
  have h₁₂ : Json.normalize (.bool r.silentAcceptance) = Json.normalize (.bool r'.silentAcceptance) :=
    Option.some.inj (key "silent_acceptance")
  have h₁₃ := Json.arr_str_inj (Option.some.inj (key "disclosure_fields"))
  have h₁₄ := actions_inj (Option.some.inj (key "requires_human_approval_for"))
  have h₁₅ := Timestamp.ext_text (Json.normalize_str_inj (Option.some.inj (key "issued_at")))
  have h₁₆ := Timestamp.ext_text (Json.normalize_str_inj (Option.some.inj (key "not_before")))
  have h₁₇ := Timestamp.ext_text (Json.normalize_str_inj (Option.some.inj (key "expires_at")))
  have h₁₈ := optStr_inj (Option.some.inj (key "parent_record_id"))
  have h₁₉ : r.status = r'.status :=
    StrEnum.value_inj (Json.normalize_str_inj (Option.some.inj (key "status")))
  have h₂₀ := Json.normalize_str_inj (Option.some.inj (key "nonce"))
  have h₂₁ := SignatureBlock.eq_of_normalize (Option.some.inj (key "signature"))
  simp only [Json.normalize, Json.bool.injEq] at h₁₂
  cases r
  cases r'
  simp_all only

/-- Revocations with one canonical form are equal. -/
theorem Revocation.eq_of_normalize {r r' : Revocation}
    (h : Json.normalize r.toJson = Json.normalize r'.toJson) : r = r' := by
  have key := Json.member_inj (by simp [unsignedFields]) (by simp [unsignedFields]) h
  have h₁ := Json.normalize_str_inj (Option.some.inj (key "schema_version"))
  have h₂ := Json.normalize_str_inj (Option.some.inj (key "revocation_id"))
  have h₃ := Json.normalize_str_inj (Option.some.inj (key "record_id"))
  have h₄ := Timestamp.ext_text (Json.normalize_str_inj (Option.some.inj (key "revoked_at")))
  have h₅ := SignatureBlock.eq_of_normalize (Option.some.inj (key "signature"))
  cases r
  cases r'
  simp_all only

structure DelegationLink where
  parentRecordId : String
  scopeNarrowingValid : Bool
deriving DecidableEq

def DelegationLink.toJson (l : DelegationLink) : Json :=
  .obj [("parent_record_id", .str l.parentRecordId),
    ("scope_narrowing_valid", .bool l.scopeNarrowingValid)]

/-- The boundary's claim about a record: the record with verified metadata. -/
structure AuthorityClaim where
  record : AuthorityRecord
  signatureValid : Bool
  delegationChain : List DelegationLink
  status : RecordStatus

def AuthorityClaim.toJson (c : AuthorityClaim) : Json :=
  .obj [("record", c.record.toJson), ("signature_valid", .bool c.signatureValid),
    ("delegation_chain", .arr (c.delegationChain.map DelegationLink.toJson)),
    ("status", .str c.status.value)]

end Mandate
