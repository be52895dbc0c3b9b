/-
  Evidence bundles: a deal's chain with its records and revocations, and a
  signed summary that binds them; their construction and their verifier.

  The verifier checks the events by a loop of its own.  It agrees with
  `verifyChain` check by check, so both accept the intact chains and fail first
  at the same event (`verifiers_agree`).
-/
import Mandate.Ledger.Verification

namespace Mandate

section
variable [Platform]

def evidenceSchemaVersion : String := "0.2"

/-! ## The bundle -/

structure GatewayPublicKeyRef where
  algorithm : String
  keyId : String
  keyB64url : String
deriving DecidableEq

def GatewayPublicKeyRef.toJson (k : GatewayPublicKeyRef) : Json :=
  .obj [("algorithm", .str k.algorithm), ("key_id", .str k.keyId),
    ("key_b64url", .str k.keyB64url)]

structure BundleSummary where
  chainHeadEventHash : String
  eventCount : ℤ
  chainSha256 : String
  recordsSha256 : String
  revocationsSha256 : String
deriving DecidableEq

def BundleSummary.toJson (s : BundleSummary) : Json :=
  .obj [("chain_head_event_hash", .str s.chainHeadEventHash), ("event_count", .int s.eventCount),
    ("chain_sha256", .str s.chainSha256), ("records_sha256", .str s.recordsSha256),
    ("revocations_sha256", .str s.revocationsSha256)]

structure BundleDeal where
  dealId : String
  state : String
  negotiatedRounds : ℤ
  committedMinor : ℤ
  openDisputes : ℤ
  openApprovals : ℤ
  createdAt : String
deriving DecidableEq

def BundleDeal.toJson (d : BundleDeal) : Json :=
  .obj [("deal_id", .str d.dealId), ("state", .str d.state),
    ("negotiated_rounds", .int d.negotiatedRounds), ("committed_minor", .int d.committedMinor),
    ("open_disputes", .int d.openDisputes), ("open_approvals", .int d.openApprovals),
    ("created_at", .str d.createdAt)]

structure EvidenceBundle where
  schemaVersion : String
  exportedAt : String
  deal : BundleDeal
  events : List Event
  authorityRecords : List AuthorityRecord
  revocations : List Revocation
  gatewayPublicKey : GatewayPublicKeyRef
  verification : BundleSummary
  summarySignature : SignatureBlock

def EventSignature.toJson (s : EventSignature) : Json :=
  .obj [("algorithm", .str s.algorithm), ("key_id", .str s.keyId), ("value", .str s.value)]

/-- Every field of the event. -/
def Event.toJson (e : Event) : Json :=
  .obj [("event_id", .str e.eventId), ("deal_id", .str e.dealId),
    ("sequence_number", .int e.sequenceNumber), ("event_type", .str e.eventType.value),
    ("actor_kind", .str e.actorKind.value), ("actor_id", .str e.actorId),
    ("authority_record_id", optStr e.authorityRecordId),
    ("previous_event_hash", .str e.previousEventHash), ("payload_hash", .str e.payloadHash),
    ("event_hash", .str e.eventHash), ("payload", .obj e.payload),
    ("occurred_at", .str e.occurredAt), ("recorded_at", .str e.recordedAt),
    ("signature", e.signature.toJson)]

def EvidenceBundle.toJson (b : EvidenceBundle) : Json :=
  .obj [("schema_version", .str b.schemaVersion), ("exported_at", .str b.exportedAt),
    ("deal", b.deal.toJson), ("events", .arr (b.events.map Event.toJson)),
    ("authority_records", .arr (b.authorityRecords.map AuthorityRecord.toJson)),
    ("revocations", .arr (b.revocations.map Revocation.toJson)),
    ("gateway_public_key", b.gatewayPublicKey.toJson), ("verification", b.verification.toJson),
    ("summary_signature", b.summarySignature.toJson)]

/-! ## Building -/

def publicKeyRef (signer : GatewaySigner) : GatewayPublicKeyRef :=
  ⟨algorithm, signer.keyId, b64urlEncode signer.publicKey⟩

/-- The payload that anchors the summary. -/
def summaryForm (dealId keyId : String) (summary : BundleSummary) : Json :=
  .obj [("kind", .str "mandate.evidence-summary"), ("schema_version", .str evidenceSchemaVersion),
    ("deal_id", .str dealId), ("key_id", .str keyId), ("verification", summary.toJson)]

omit [Platform] in
theorem BundleSummary.eq_of_normalize {s t : BundleSummary}
    (h : Json.normalize s.toJson = Json.normalize t.toJson) : s = t := by
  have key := Json.member_inj (by simp) (by simp) h
  have h₁ := Json.normalize_str_inj (Option.some.inj (key "chain_head_event_hash"))
  have h₂ := Json.normalize_int_inj (Option.some.inj (key "event_count"))
  have h₃ := Json.normalize_str_inj (Option.some.inj (key "chain_sha256"))
  have h₄ := Json.normalize_str_inj (Option.some.inj (key "records_sha256"))
  have h₅ := Json.normalize_str_inj (Option.some.inj (key "revocations_sha256"))
  cases s
  cases t
  simp_all only

omit [Platform] in
theorem summaryForm_inj {dealId dealId' keyId keyId' : String} {s s' : BundleSummary}
    (h : Json.normalize (summaryForm dealId keyId s) =
      Json.normalize (summaryForm dealId' keyId' s')) : dealId = dealId' ∧ keyId = keyId' ∧ s = s' := by
  have key := Json.member_inj (by simp) (by simp) h
  exact ⟨Json.normalize_str_inj (Option.some.inj (key "deal_id")),
    Json.normalize_str_inj (Option.some.inj (key "key_id")),
    BundleSummary.eq_of_normalize (Option.some.inj (key "verification"))⟩

def summarySigningBytes (dealId keyId : String) (summary : BundleSummary) : Bytes :=
  Json.canonicalBytes (summaryForm dealId keyId summary)

/-- The digest of a section of the bundle. -/
def sectionSha256 (items : List Json) : String := canonicalSha256Hex (.arr items)

/-- The hash at the head of the events. -/
def headEventHash (events : List Event) : String :=
  HashChain.headHash Event.eventHash genesisHash events

def buildBundle (exportedAt : String) (deal : Deal) (dealCreatedAt : String) (events : List Event)
    (records : List AuthorityRecord) (revocations : List Revocation) (signer : GatewaySigner) :
    EvidenceBundle :=
  let summary : BundleSummary :=
    { chainHeadEventHash := headEventHash events
      eventCount := events.length
      chainSha256 := sectionSha256 (events.map Event.toJson)
      recordsSha256 := sectionSha256 (records.map AuthorityRecord.toJson)
      revocationsSha256 := sectionSha256 (revocations.map Revocation.toJson) }
  { schemaVersion := evidenceSchemaVersion
    exportedAt
    deal := {
      dealId := deal.dealId
      state := deal.state.value
      negotiatedRounds := deal.negotiatedRounds
      committedMinor := deal.committedMinor
      openDisputes := deal.openDisputes
      openApprovals := deal.openApprovals
      createdAt := dealCreatedAt }
    events
    authorityRecords := records
    revocations
    gatewayPublicKey := publicKeyRef signer
    verification := summary
    summarySignature := ⟨algorithm, signer.keyId,
      signer.signBytes (summarySigningBytes deal.dealId signer.keyId summary)⟩ }

/-- Canonical text of the whole bundle. -/
def bundleJson (bundle : EvidenceBundle) : String := String.ofList (Json.canonical bundle.toJson)

/-! ## Verifying -/

inductive BundleCheckName where
  | schemaVersion | expectedPublicKey | gatewayPublicKey
  | event (index : ℕ) (check : EventCheck)
  | eventCount | chainSha256 | recordsSha256 | revocationsSha256 | chainHeadEventHash
  | summarySignature | dealStateDivergent
deriving DecidableEq, Repr

def BundleCheckName.value : BundleCheckName → String
  | schemaVersion => "schema_version"
  | expectedPublicKey => "expected_public_key"
  | gatewayPublicKey => "gateway_public_key"
  | event index check => s!"event_{index}_{check.value}"
  | eventCount => "event_count"
  | chainSha256 => "chain_sha256"
  | recordsSha256 => "records_sha256"
  | revocationsSha256 => "revocations_sha256"
  | chainHeadEventHash => "chain_head_event_hash"
  | summarySignature => "summary_signature"
  | dealStateDivergent => "deal_state_divergent"

/-- The index of the event that a check is about. -/
def BundleCheckName.eventIndex? : BundleCheckName → Option ℕ
  | event index _ => some index
  | _ => none

structure BundleCheck where
  name : BundleCheckName
  ok : Bool
  detail : String

structure VerifyReport where
  ok : Bool
  checks : List BundleCheck

def VerifyReport.firstFailure (r : VerifyReport) : Option BundleCheck := r.checks.find? (!·.ok)

/-- The checks about single events. -/
def VerifyReport.eventChecks (r : VerifyReport) : List BundleCheck :=
  r.checks.filter fun c => c.name.eventIndex?.isSome

/-- `_verify_event`; a detail is given whether or not the check passes. -/
def verifyEvent (publicKey : Bytes) (index : ℕ) (previous : String) (event : Event) :
    List BundleCheck :=
  [⟨.event index .payloadHash, event.payloadHash = canonicalSha256Hex (.obj event.payload),
      "payload_hash does not match payload"⟩,
    ⟨.event index .eventHash, event.eventHash = Platform.sha256Hex event.signingBytes,
      "event_hash does not match the canonical event form"⟩,
    if event.signature.algorithm ≠ algorithm then
      ⟨.event index .signature, false, s!"unexpected algorithm {pyRepr event.signature.algorithm}"⟩
    else match signatureException publicKey event.signingBytes event.signature.value with
      | none => ⟨.event index .signature, true, "ok"⟩
      | some exception => ⟨.event index .signature, false, s!"signature failed: {exception}"⟩,
    ⟨.event index .sequence, event.sequenceNumber = index,
      s!"sequence {event.sequenceNumber}, expected {index}"⟩,
    ⟨.event index .chainLink, event.previousEventHash = previous,
      "previous_event_hash breaks the chain"⟩]

/-- `_verify_summary_signature`. -/
def verifySummarySignature (bundle : EvidenceBundle) (publicKey : Bytes) : BundleCheck :=
  let expected := summarySigningBytes bundle.deal.dealId bundle.gatewayPublicKey.keyId
    bundle.verification
  if bundle.summarySignature.algorithm ≠ algorithm then
    ⟨.summarySignature, false,
      s!"unexpected algorithm {pyRepr bundle.summarySignature.algorithm}"⟩
  else if bundle.summarySignature.keyId ≠ bundle.gatewayPublicKey.keyId then
    ⟨.summarySignature, false, "signature key_id does not match gateway_public_key.key_id"⟩
  else match signatureException publicKey expected bundle.summarySignature.value with
    | some exception => ⟨.summarySignature, false, s!"summary signature failed: {exception}"⟩
    | none => ⟨.summarySignature, true, "ok"⟩

/-- The signer's key as the verifier knows it: the key, or its base64url form. -/
inductive ExpectedKey where
  | key (publicKey : Bytes)
  | text (value : String)

def loadPublicKey (raw : Bytes) : Except PyError Bytes :=
  if raw.length = 32 then .ok raw
  else .error (.valueError s!"Ed25519 public key must be 32 bytes, got {raw.length}")

/-- The key, or the reason it cannot be used. -/
def ExpectedKey.load : ExpectedKey → Except String Bytes
  | key publicKey => .ok publicKey
  | text value =>
    match b64urlDecode value >>= loadPublicKey with
    | .ok publicKey => .ok publicKey
    | .error (.valueError reason) => .error reason
    | .error _ => .error ""

/-- The checks of the signing key and of the events, under a usable key. -/
def keyedChecks (bundle : EvidenceBundle) : Except String Bytes → List BundleCheck
  | .error reason => [⟨.expectedPublicKey, false, s!"supplied key is unusable: {reason}"⟩]
  | .ok publicKey =>
    ⟨.gatewayPublicKey, bundle.gatewayPublicKey.keyB64url = b64urlEncode publicKey,
      "the bundle names a different signing key than the one supplied; " ++
        "every signature below is checked against the supplied key"⟩ ::
      HashChain.scan Event.eventHash BundleCheck.ok (verifyEvent publicKey) 0 genesisHash
        bundle.events

/-- The checks that the summary binds the sections. -/
def sectionChecks (bundle : EvidenceBundle) : List BundleCheck :=
  let summary := bundle.verification
  [⟨.eventCount, summary.eventCount = bundle.events.length,
      s!"summary {summary.eventCount} != {bundle.events.length}"⟩,
    ⟨.chainSha256, summary.chainSha256 = sectionSha256 (bundle.events.map Event.toJson),
      "summary does not bind the event list"⟩,
    ⟨.recordsSha256,
      summary.recordsSha256 = sectionSha256 (bundle.authorityRecords.map AuthorityRecord.toJson),
      "summary does not bind the authority records"⟩,
    ⟨.revocationsSha256,
      summary.revocationsSha256 = sectionSha256 (bundle.revocations.map Revocation.toJson),
      "summary does not bind the revocations"⟩,
    ⟨.chainHeadEventHash, summary.chainHeadEventHash = headEventHash bundle.events,
      "summary head does not match the final event"⟩]

/-- The last transition leads to the state of the deal. -/
def dealStateCheck (bundle : EvidenceBundle) : BundleCheck :=
  match bundle.events.reverse.find? (·.eventType = .stateTransition) with
  | none => ⟨.dealStateDivergent, true, "no transitions recorded"⟩
  | some last => ⟨.dealStateDivergent, last.str? "to_state" = some bundle.deal.state,
      "final transition target != deal state"⟩

/-- The normative verification procedure. -/
def verifyBundle (bundle : EvidenceBundle) (expectedKey : ExpectedKey) : VerifyReport :=
  let publicKey := expectedKey.load
  let checks :=
    ⟨.schemaVersion, bundle.schemaVersion = evidenceSchemaVersion,
        s!"got {pyRepr bundle.schemaVersion}"⟩ ::
      keyedChecks bundle publicKey ++ sectionChecks bundle ++
      (match publicKey with
        | .ok publicKey => [verifySummarySignature bundle publicKey]
        | .error _ => []) ++
      [dealStateCheck bundle]
  { ok := checks.all BundleCheck.ok, checks }

/-! ## The two verifiers -/

variable {publicKey : Bytes}

variable (publicKey) in
/-- Both loops check an event alike. -/
theorem verifyEvent_map (index : ℕ) (previous : String) (e : Event) :
    (verifyEvent publicKey index previous e).map (fun c => (c.name, c.ok)) =
      (checkEvent publicKey index previous e).map
        fun c => (BundleCheckName.event c.index c.check, c.ok) := by
  have hsig : (if e.signature.algorithm ≠ algorithm then
        (⟨.event index .signature, false,
          s!"unexpected algorithm {pyRepr e.signature.algorithm}"⟩ : BundleCheck)
      else match signatureException publicKey e.signingBytes e.signature.value with
        | none => ⟨.event index .signature, true, "ok"⟩
        | some exception => ⟨.event index .signature, false, s!"signature failed: {exception}"⟩) =
      ⟨.event index .signature, (verifySig publicKey e.signingBytes e.signature).1,
        if e.signature.algorithm ≠ algorithm then
          s!"unexpected algorithm {pyRepr e.signature.algorithm}"
        else match signatureException publicKey e.signingBytes e.signature.value with
          | none => "ok"
          | some exception => s!"signature failed: {exception}"⟩ := by
    unfold verifySig
    split_ifs with ha
    · rfl
    · cases signatureException publicKey e.signingBytes e.signature.value <;> rfl
  rw [verifyEvent, hsig]
  rfl

theorem all_ok_eq (index : ℕ) (previous : String) (e : Event) :
    (verifyEvent publicKey index previous e).all BundleCheck.ok =
      (checkEvent publicKey index previous e).all ChainCheck.ok := by
  have h := congrArg (List.all · Prod.snd)
    (verifyEvent_map publicKey index previous e)
  simpa only [List.all_map, Function.comp_def] using h

variable (publicKey) in
/-- Both loops check a chain alike. -/
theorem scan_checks (events : List Event) :
    (HashChain.scan Event.eventHash BundleCheck.ok (verifyEvent publicKey) 0 genesisHash
        events).map (fun c => (c.name, c.ok)) =
      (verifyChain events publicKey).checks.map
        fun c => (BundleCheckName.event c.index c.check, c.ok) :=
  HashChain.scan_map_eq (verifyEvent_map publicKey) all_ok_eq

omit [Platform] in
theorem dealStateCheck_name (bundle : EvidenceBundle) :
    (dealStateCheck bundle).name = .dealStateDivergent := by
  unfold dealStateCheck
  split <;> rfl

theorem verifySummarySignature_name (bundle : EvidenceBundle) (publicKey : Bytes) :
    (verifySummarySignature bundle publicKey).name = .summarySignature := by
  unfold verifySummarySignature
  dsimp only
  split_ifs
  · rfl
  · rfl
  · split <;> rfl

/-- The checks about single events are those of the loop. -/
theorem eventChecks_eq {bundle : EvidenceBundle} {expectedKey : ExpectedKey}
    (hkey : expectedKey.load = .ok publicKey) :
    (verifyBundle bundle expectedKey).eventChecks =
      HashChain.scan Event.eventHash BundleCheck.ok (verifyEvent publicKey) 0 genesisHash
        bundle.events := by
  have hscan : ∀ c ∈ HashChain.scan Event.eventHash BundleCheck.ok (verifyEvent publicKey) 0
      genesisHash bundle.events, c.name.eventIndex?.isSome = true := by
    intro c hc
    have hm := List.mem_map_of_mem (f := fun c : BundleCheck => (c.name, c.ok)) hc
    rw [scan_checks, List.mem_map] at hm
    obtain ⟨c', -, heq⟩ := hm
    rw [← (Prod.mk.inj heq).1]
    rfl
  simp only [VerifyReport.eventChecks, verifyBundle, hkey, keyedChecks, sectionChecks,
    List.cons_append, List.filter_append, List.filter_cons, List.filter_nil,
    BundleCheckName.eventIndex?, Option.isSome_none, Bool.false_eq_true, if_false,
    dealStateCheck_name, verifySummarySignature_name, List.append_nil]
  exact List.filter_eq_self.2 hscan

/-- The checks about single events pass iff the chain is intact. -/
theorem eventChecks_ok {b : EvidenceBundle} {expectedKey : ExpectedKey} {publicKey : Bytes}
    (hkey : expectedKey.load = .ok publicKey) : Intact b.events publicKey ↔
      ∀ c ∈ (verifyBundle b expectedKey).eventChecks, c.ok = true := by
  have hall := congrArg (List.all · Prod.snd) (scan_checks publicKey b.events)
  simp only [List.all_map, Function.comp_def] at hall
  rw [eventChecks_eq hkey, ← verifyChain_ok, ← List.all_eq_true, hall]
  rfl

/-- The verifiers agree with one definition of an intact chain and with each
    other.  The first failure is at the first event that is not intact; whatever
    bundle holds the events, its checks about single events pass iff the chain is
    intact, and the first check to fail is the same in both. -/
theorem verifiers_agree (events : List Event) (publicKey : Bytes) :
    ((verifyChain events publicKey).ok = true ↔ Intact events publicKey) ∧
      (∀ c, (verifyChain events publicKey).firstFailure = some c →
        Intact (events.take c.index) publicKey ∧ ∃ e, events[c.index]? = some e ∧
          ¬ e.Intact publicKey c.index
            (HashChain.prevAt Event.eventHash genesisHash events c.index)) ∧
      ∀ (bundle : EvidenceBundle) (expectedKey : ExpectedKey), bundle.events = events →
        expectedKey.load = .ok publicKey →
        (Intact events publicKey ↔
          ∀ c ∈ (verifyBundle bundle expectedKey).eventChecks, c.ok = true) ∧
        ((verifyBundle bundle expectedKey).eventChecks.find? (!·.ok)).map BundleCheck.name =
          (verifyChain events publicKey).firstFailure.map
            fun c => BundleCheckName.event c.index c.check := by
  refine ⟨verifyChain_ok, fun _ => verifyChain_firstFailure, ?_⟩
  rintro bundle expectedKey rfl hkey
  refine ⟨eventChecks_ok hkey, ?_⟩
  have hfind := congrArg (fun cs => (cs.find? fun p => !p.2).map Prod.fst)
    (scan_checks publicKey bundle.events)
  simp only [List.find?_map, Option.map_map, Function.comp_def] at hfind
  rw [eventChecks_eq hkey]
  exact hfind

end

/-! ## A bundle with a gap -/

open Sample

attribute [local instance] Sample.platform

def Sample.exported : EvidenceBundle :=
  buildBundle now.text { dealId, state := .negotiating } start.text [opening, received, counterOffer]
    [record] [] signer

/-- The export without its second event. -/
def Sample.cut : EvidenceBundle := { exported with events := [opening, counterOffer] }

theorem Sample.cut_fails :
    ∃ c, (verifyChain [opening, counterOffer] signer.publicKey).firstFailure = some c := by
  refine exists_firstFailure fun h => ?_
  have hsequence : counterOffer.sequenceNumber = 1 := (h 1 counterOffer rfl).sequence
  cases hsequence

theorem verifiers_agree_exported :
    (∀ c ∈ (verifyBundle Sample.exported (.key signer.publicKey)).eventChecks, c.ok = true) ∧
      ∃ check, ((verifyBundle Sample.cut (.key signer.publicKey)).eventChecks.find? (!·.ok)).map
        BundleCheck.name = some (.event 1 check) := by
  obtain ⟨-, -, hexported⟩ := verifiers_agree [Sample.opening, Sample.received, Sample.counterOffer]
    signer.publicKey
  obtain ⟨-, hfirst, hcut⟩ := verifiers_agree [Sample.opening, Sample.counterOffer] signer.publicKey
  refine ⟨(hexported Sample.exported (.key signer.publicKey) rfl rfl).1.1
    (Sample.begins_chain Sample.opening_intact rfl), ?_⟩
  obtain ⟨c, hc⟩ := Sample.cut_fails
  obtain ⟨-, e, he, hbad⟩ := hfirst c hc
  -- the first event is intact
  have hindex : c.index = 1 := by
    have hlt := (List.getElem?_eq_some_iff.1 he).1
    have hne : c.index ≠ 0 := by
      intro h0
      rw [h0] at he hbad
      cases he
      exact hbad Sample.opening_intact
    simp only [List.length_cons, List.length_nil] at hlt
    omega
  refine ⟨c.check, ?_⟩
  rw [(hcut Sample.cut (.key signer.publicKey) rfl rfl).2, hc, Option.map_some, hindex]

end Mandate
