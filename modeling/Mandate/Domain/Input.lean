/-
  The policy engine's input and output: content claims, the untrusted proposal,
  the boundary's immutable `PolicyInput`, and the decision.

  Basis points and levels are bounded by their types; detected fields are
  distinct, and content claims come with a content digest, by construction.
-/
import Mathlib.Data.List.Sort
import Mandate.Domain.Deals

namespace Mandate

/-! ## Content claims -/

def bpScale : ℕ := 10000

/-- A probability in basis points. -/
abbrev BasisPoints := Fin (bpScale + 1)

-- The bounds are positive; named once, for the zero defaults below.
instance (priority := high) bpScale_succ_neZero : NeZero (bpScale + 1) := ⟨Nat.succ_ne_zero _⟩

instance (priority := high) four_neZero : NeZero 4 := ⟨Nat.succ_ne_zero _⟩

/-- One sensitive field the screen believes the content reveals. -/
structure DetectedField where
  field : String
  confidenceBp : BasisPoints
deriving DecidableEq

def DetectedField.toJson (d : DetectedField) : Json :=
  .obj [("field", .str d.field), ("confidence_bp", .int d.confidenceBp.val)]

/-- The boundary's summary of one content screen. -/
structure ContentClaims where
  screener : String
  questionSetSha256 : String
  contentChars : ℕ
  available : Bool := true
  detected : List DetectedField := []
  hostilityBp : BasisPoints := 0
  persuasionBp : BasisPoints := 0
  urgencyLevel : Fin 4 := 0
  detectedUnique : (detected.map DetectedField.field).Nodup := by decide

theorem nothingDetected_nodup : (([] : List DetectedField).map DetectedField.field).Nodup :=
  List.nodup_nil

def ContentClaims.toJson (c : ContentClaims) : Json :=
  .obj [("screener", .str c.screener), ("question_set_sha256", .str c.questionSetSha256),
    ("content_chars", .int c.contentChars), ("available", .bool c.available),
    ("detected", .arr (c.detected.map DetectedField.toJson)),
    ("hostility_bp", .int c.hostilityBp.val), ("persuasion_bp", .int c.persuasionBp.val),
    ("urgency_level", .int c.urgencyLevel.val)]

/-- Detected fields that are not on the allow-list, in field order. -/
def ContentClaims.undeclared (c : ContentClaims) (allowed : List String) : List DetectedField :=
  (c.detected.filter fun d => d.field ∉ allowed).insertionSort fun a b => a.field ≤ b.field

theorem ContentClaims.mem_undeclared {c : ContentClaims} {allowed : List String}
    {d : DetectedField} :
    d ∈ c.undeclared allowed ↔ d ∈ c.detected ∧ d.field ∉ allowed := by
  simp [undeclared, List.mem_insertionSort]

/-! ## The input -/

inductive ActorKind where
  | principal | agent | system | counterparty
deriving DecidableEq, Repr

def ActorKind.value : ActorKind → String
  | principal => "principal"
  | agent => "agent"
  | system => "system"
  | counterparty => "counterparty"

instance : StrEnum ActorKind where
  all := [.principal, .agent, .system, .counterparty]
  value := ActorKind.value
  mem_all k := by cases k <;> decide
  nodup := by decide

structure Actor where
  kind : ActorKind
  id : String
deriving DecidableEq

structure Counterparty where
  id : Option String
deriving DecidableEq

/-- The untrusted agent proposal; `action` is raw input. -/
structure Proposal where
  action : String
  dealId : String
  amountMinor : Option ℕ := none
  currency : String
  disclosureFields : List String := []
  idempotencyKey : String
  contentSha256 : Option String := none
deriving DecidableEq

/-- The amount as the ledger's integer type. -/
def Proposal.amount (p : Proposal) : Option ℤ := p.amountMinor.map fun n : ℕ => (n : ℤ)

def Proposal.toJson (p : Proposal) : Json :=
  .obj [("action", .str p.action), ("deal_id", .str p.dealId), ("amount_minor", optInt p.amount),
    ("currency", .str p.currency), ("disclosure_fields", .arr (p.disclosureFields.map .str)),
    ("idempotency_key", .str p.idempotencyKey), ("content_sha256", optStr p.contentSha256)]

/-- The complete, immutable input of `evaluate`. -/
structure PolicyInput where
  schemaVersion : String
  requestId : String
  now : Timestamp
  actor : Actor
  authority : AuthorityClaim
  counterparty : Counterparty
  deal : Deal
  proposal : Proposal
  content : Option ContentClaims := none
  contentNeedsDigest : content.isSome → proposal.contentSha256.isSome := by simp

/-- Without content there is nothing to digest. -/
theorem digest_of_noContent :
    (none : Option ContentClaims).isSome → (none : Option String).isSome := by simp

def PolicyInput.toJson (pi : PolicyInput) : Json :=
  .obj [("schema_version", .str pi.schemaVersion), ("request_id", .str pi.requestId),
    ("now", .str pi.now.text),
    ("actor", .obj [("kind", .str pi.actor.kind.value), ("id", .str pi.actor.id)]),
    ("authority", pi.authority.toJson), ("counterparty", .obj [("id", optStr pi.counterparty.id)]),
    ("deal", pi.deal.toJson), ("proposal", pi.proposal.toJson),
    ("content", match pi.content with | some c => c.toJson | none => .null)]

/-! ## The decision -/

inductive Outcome where
  | allow | deny | needsApproval
deriving DecidableEq, Repr

def Outcome.value : Outcome → String
  | allow => "allow"
  | deny => "deny"
  | needsApproval => "needs_approval"

instance : StrEnum Outcome where
  all := [.allow, .deny, .needsApproval]
  value := Outcome.value
  mem_all o := by cases o <;> decide
  nodup := by decide

inductive ReasonCode where
  | ok | unknownSchemaVersion | missingField | invalidSignatureClaim | recordRevoked
  | recordExpired | notYetValid | delegationChainBroken | audienceMismatch | replayDetected
  | actionProhibited | actionNotAllowed | unknownAction | invalidTransition
  | disclosureNotAllowed | spendCapExceeded | negotiationLimitReached | approvalRequired
  | paymentBlockedByDispute | paymentBlockedByOpenApproval | currencyMismatch
  | disclosureDetected | contentReviewRequired | hostileContentSuspected
  | contentScreenUnavailable
deriving DecidableEq, Repr

def ReasonCode.value : ReasonCode → String
  | ok => "ok"
  | unknownSchemaVersion => "unknown_schema_version"
  | missingField => "missing_field"
  | invalidSignatureClaim => "invalid_signature_claim"
  | recordRevoked => "record_revoked"
  | recordExpired => "record_expired"
  | notYetValid => "not_yet_valid"
  | delegationChainBroken => "delegation_chain_broken"
  | audienceMismatch => "audience_mismatch"
  | replayDetected => "replay_detected"
  | actionProhibited => "action_prohibited"
  | actionNotAllowed => "action_not_allowed"
  | unknownAction => "unknown_action"
  | invalidTransition => "invalid_transition"
  | disclosureNotAllowed => "disclosure_not_allowed"
  | spendCapExceeded => "spend_cap_exceeded"
  | negotiationLimitReached => "negotiation_limit_reached"
  | approvalRequired => "approval_required"
  | paymentBlockedByDispute => "payment_blocked_by_dispute"
  | paymentBlockedByOpenApproval => "payment_blocked_by_open_approval"
  | currencyMismatch => "currency_mismatch"
  | disclosureDetected => "disclosure_detected"
  | contentReviewRequired => "content_review_required"
  | hostileContentSuspected => "hostile_content_suspected"
  | contentScreenUnavailable => "content_screen_unavailable"

instance : StrEnum ReasonCode where
  all := [.ok, .unknownSchemaVersion, .missingField, .invalidSignatureClaim, .recordRevoked,
    .recordExpired, .notYetValid, .delegationChainBroken, .audienceMismatch, .replayDetected,
    .actionProhibited, .actionNotAllowed, .unknownAction, .invalidTransition,
    .disclosureNotAllowed, .spendCapExceeded, .negotiationLimitReached, .approvalRequired,
    .paymentBlockedByDispute, .paymentBlockedByOpenApproval, .currencyMismatch,
    .disclosureDetected, .contentReviewRequired, .hostileContentSuspected,
    .contentScreenUnavailable]
  value := ReasonCode.value
  mem_all r := by cases r <;> decide
  nodup := by decide

/-- The immutable output of one evaluation. -/
structure PolicyDecision where
  outcome : Outcome
  reasonCode : ReasonCode
  explanation : String
  matchedRule : String
  authorityRecordId : String
  evaluatedAt : String
  inputDigest : String
deriving DecidableEq

def PolicyDecision.toJson (d : PolicyDecision) : Json :=
  .obj [("outcome", .str d.outcome.value), ("reason_code", .str d.reasonCode.value),
    ("explanation", .str d.explanation), ("matched_rule", .str d.matchedRule),
    ("authority_record_id", .str d.authorityRecordId), ("evaluated_at", .str d.evaluatedAt),
    ("input_digest", .str d.inputDigest)]

end Mandate
