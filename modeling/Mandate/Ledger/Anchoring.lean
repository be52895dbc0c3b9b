/-
  The signed summary anchors a bundle.

  A bundle that verifies is characterised by what each check says
  (`verifyBundle_ok`).  The signed payloads of the chain key are told apart by
  their members, so a summary signature that verifies was made for a summary,
  and the summary fixes the sections: what verifies has the deal, the events,
  the records and the revocations of one export (`verified_bundle_exported`).
-/
import Mandate.Ledger.Evidence

namespace Mandate

section
variable [Platform]

/-! ## What verifies -/

/-- What the checks of a bundle say, check by check. -/
structure EvidenceBundle.Verifies (b : EvidenceBundle) (publicKey : Bytes) : Prop where
  schemaVersion : b.schemaVersion = evidenceSchemaVersion
  namedKey : b.gatewayPublicKey.keyB64url = b64urlEncode publicKey
  intact : Intact b.events publicKey
  eventCount : b.verification.eventCount = b.events.length
  chain : b.verification.chainSha256 = sectionSha256 (b.events.map Event.toJson)
  records : b.verification.recordsSha256 =
    sectionSha256 (b.authorityRecords.map AuthorityRecord.toJson)
  revocations : b.verification.revocationsSha256 =
    sectionSha256 (b.revocations.map Revocation.toJson)
  head : b.verification.chainHeadEventHash = headEventHash b.events
  algorithm : b.summarySignature.algorithm = Mandate.algorithm
  keyId : b.summarySignature.keyId = b.gatewayPublicKey.keyId
  signed : ∃ raw, b64urlDecode b.summarySignature.value = .ok raw ∧
    Platform.ed25519Verify publicKey raw
      (summarySigningBytes b.deal.dealId b.gatewayPublicKey.keyId b.verification)
  dealState : ∀ last ∈ b.events.reverse.find? (·.eventType = .stateTransition),
    last.str? "to_state" = some b.deal.state

variable {publicKey : Bytes} {b : EvidenceBundle}

theorem verifySummarySignature_ok : (verifySummarySignature b publicKey).ok = true ↔
    b.summarySignature.algorithm = algorithm ∧
      b.summarySignature.keyId = b.gatewayPublicKey.keyId ∧
      ∃ raw, b64urlDecode b.summarySignature.value = .ok raw ∧
        Platform.ed25519Verify publicKey raw
          (summarySigningBytes b.deal.dealId b.gatewayPublicKey.keyId b.verification) := by
  rw [← signatureException_eq_none]
  unfold verifySummarySignature
  dsimp only
  split_ifs with ha hk
  · simp [ha]
  · simp [hk]
  · rw [iff_true_intro (not_not.1 ha), iff_true_intro (not_not.1 hk), true_and, true_and]
    cases signatureException publicKey (summarySigningBytes b.deal.dealId
      b.gatewayPublicKey.keyId b.verification) b.summarySignature.value <;> simp

omit [Platform] in
theorem dealStateCheck_ok : (dealStateCheck b).ok = true ↔
    ∀ last ∈ b.events.reverse.find? (·.eventType = .stateTransition),
      last.str? "to_state" = some b.deal.state := by
  unfold dealStateCheck
  cases b.events.reverse.find? (·.eventType = .stateTransition) <;> simp

/-- A bundle verifies iff every check passes. -/
theorem verifyBundle_ok {expectedKey : ExpectedKey} (hkey : expectedKey.load = .ok publicKey) :
    (verifyBundle b expectedKey).ok = true ↔ b.Verifies publicKey := by
  have hevents : (HashChain.scan Event.eventHash BundleCheck.ok (verifyEvent publicKey) 0
      genesisHash b.events).all BundleCheck.ok = true ↔ Intact b.events publicKey := by
    rw [← eventChecks_eq hkey, List.all_eq_true]
    exact (eventChecks_ok hkey).symm
  simp only [verifyBundle, hkey, keyedChecks, sectionChecks, List.all_cons, List.all_append,
    List.all_nil, Bool.and_true, Bool.and_eq_true, decide_eq_true_eq, hevents,
    verifySummarySignature_ok, dealStateCheck_ok]
  constructor
  · rintro ⟨⟨⟨⟨hschema, hpublic, hintact⟩, hcount, hchain, hrecords, hrevocations, hhead⟩,
      halgorithm, hkeyId, hsigned⟩, hstate⟩
    exact ⟨hschema, hpublic, hintact, hcount, hchain, hrecords, hrevocations, hhead, halgorithm,
      hkeyId, hsigned, hstate⟩
  · rintro ⟨hschema, hpublic, hintact, hcount, hchain, hrecords, hrevocations, hhead, halgorithm,
      hkeyId, hsigned, hstate⟩
    exact ⟨⟨⟨⟨hschema, hpublic, hintact⟩, hcount, hchain, hrecords, hrevocations, hhead⟩,
      halgorithm, hkeyId, hsigned⟩, hstate⟩

/-- A bundle as it is built verifies, if its events are intact and its summary
    is properly signed. -/
theorem buildBundle_verifies {exportedAt dealCreatedAt : String} {deal : Deal}
    {events : List Event} {records : List AuthorityRecord} {revocations : List Revocation}
    {signer : GatewaySigner} (hi : Intact events signer.publicKey)
    (hs : let b := buildBundle exportedAt deal dealCreatedAt events records revocations signer
      ∃ raw, b64urlDecode b.summarySignature.value = .ok raw ∧
        Platform.ed25519Verify signer.publicKey raw
          (summarySigningBytes b.deal.dealId b.gatewayPublicKey.keyId b.verification))
    (hd : ∀ last ∈ events.reverse.find? (·.eventType = .stateTransition),
      last.str? "to_state" = some deal.state.value) :
    (buildBundle exportedAt deal dealCreatedAt events records revocations signer).Verifies
      signer.publicKey where
  schemaVersion := rfl
  namedKey := rfl
  intact := hi
  eventCount := rfl
  chain := rfl
  records := rfl
  revocations := rfl
  head := rfl
  algorithm := rfl
  keyId := rfl
  signed := hs
  dealState := hd

/-! ## What the chain key signs -/

/-- The arguments of one export. -/
structure BundleCall where
  exportedAt : String
  deal : Deal
  dealCreatedAt : String
  events : List Event
  records : List AuthorityRecord
  revocations : List Revocation
  signer : GatewaySigner

def BundleCall.bundle (call : BundleCall) : EvidenceBundle :=
  buildBundle call.exportedAt call.deal call.dealCreatedAt call.events call.records
    call.revocations call.signer

/-- A use of the chain key by the program. -/
inductive SignedItem where
  | record (r : AuthorityRecord)
  | revocation (r : Revocation)
  | approval (r : ApprovalRecord)
  | event (e : Event)
  | summary (call : BundleCall)

/-- The object that is signed. -/
def SignedItem.form : SignedItem → Json
  | record r => .obj r.unsignedFields
  | revocation r => .obj r.unsignedFields
  | approval r => .obj r.unsignedFields
  | event e => e.canonicalForm
  | summary call => summaryForm call.deal.dealId call.signer.keyId call.bundle.verification

/-- The bytes the key signs. -/
def SignedItem.payload (item : SignedItem) : Bytes := Json.canonicalBytes item.form

/-- Every payload that a signature verifies for under the key is in the log of
    the program's uses of its chain key. -/
structure ChainKeyUse (publicKey : Bytes) (log : List SignedItem) : Prop where
  ideal : ∀ signature payload, Platform.ed25519Verify publicKey signature payload →
    ∃ item ∈ log, item.payload = payload
  key : ∀ call, .summary call ∈ log → call.signer.publicKey = publicKey

/-- Nothing else that is signed looks like a summary, which binds the deal, the
    key and the digests. -/
theorem SignedItem.summary_of_form {item : SignedItem} {dealId keyId : String}
    {summary : BundleSummary}
    (h : Json.normalize item.form = Json.normalize (summaryForm dealId keyId summary)) :
    ∃ call, item = .summary call ∧ call.deal.dealId = dealId ∧ call.signer.keyId = keyId ∧
      call.bundle.verification = summary := by
  -- only a summary has a kind
  have hkind : ∀ fields : List (String × Json), (fields.map Prod.fst).Nodup →
      Json.normalize (.obj fields) = Json.normalize (summaryForm dealId keyId summary) →
      Dict.getEntries "kind" fields ≠ none := by
    intro fields hn heq hnone
    have key := Json.member_inj hn (by simp) heq "kind"
    rw [hnone] at key
    cases key
  cases item with
  | record r =>
    exact absurd rfl (hkind r.unsignedFields (by simp [AuthorityRecord.unsignedFields]) h)
  | revocation r =>
    exact absurd rfl (hkind r.unsignedFields (by simp [Revocation.unsignedFields]) h)
  | approval r =>
    exact absurd rfl (hkind r.unsignedFields (by simp [ApprovalRecord.unsignedFields]) h)
  | event e => exact absurd rfl (hkind _ (by simp) h)
  | summary call =>
    obtain ⟨hdeal, hkey, hsummary⟩ := summaryForm_inj h
    exact ⟨call, rfl, hdeal, hkey, hsummary⟩

/-! ## What a section's digest fixes -/

/-- The events are equal; payloads are objects, whose members have no order. -/
structure Event.Same (e e' : Event) : Prop extends e.SameForm e' where
  signature : e.signature = e'.signature

omit [Platform] in
theorem EventSignature.eq_of_normalize {s t : EventSignature}
    (h : Json.normalize s.toJson = Json.normalize t.toJson) : s = t := by
  have key := Json.member_inj (by simp) (by simp) h
  have ha := Json.normalize_str_inj (Option.some.inj (key "algorithm"))
  have hk := Json.normalize_str_inj (Option.some.inj (key "key_id"))
  have hv := Json.normalize_str_inj (Option.some.inj (key "value"))
  cases s
  cases t
  simp_all only

omit [Platform] in
theorem Event.same_of_normalize {e e' : Event}
    (h : Json.normalize e.toJson = Json.normalize e'.toJson) : e.Same e' := by
  have key := Json.member_inj (by simp) (by simp) h
  exact {
    eventId := Json.normalize_str_inj (Option.some.inj (key "event_id"))
    dealId := Json.normalize_str_inj (Option.some.inj (key "deal_id"))
    sequenceNumber := Int.ofNat.inj (Json.normalize_int_inj (Option.some.inj
      (key "sequence_number")))
    eventType := EventType.value_inj (Json.normalize_str_inj (Option.some.inj (key "event_type")))
    actorKind := ActorKind.value_inj (Json.normalize_str_inj (Option.some.inj (key "actor_kind")))
    actorId := Json.normalize_str_inj (Option.some.inj (key "actor_id"))
    authorityRecordId := optStr_inj (Option.some.inj (key "authority_record_id"))
    previousEventHash := Json.normalize_str_inj (Option.some.inj (key "previous_event_hash"))
    payloadHash := Json.normalize_str_inj (Option.some.inj (key "payload_hash"))
    eventHash := Json.normalize_str_inj (Option.some.inj (key "event_hash"))
    payload := Option.some.inj (key "payload")
    occurredAt := Json.normalize_str_inj (Option.some.inj (key "occurred_at"))
    recordedAt := Json.normalize_str_inj (Option.some.inj (key "recorded_at"))
    signature := EventSignature.eq_of_normalize (Option.some.inj (key "signature")) }

/-- What verifies is signed over the sections of one export under the key. -/
theorem EvidenceBundle.Verifies.exported {log : List SignedItem} (hv : b.Verifies publicKey)
    (hf : CollisionFree) (hu : ChainKeyUse publicKey log) :
    ∃ call, .summary call ∈ log ∧ call.signer.publicKey = publicKey ∧
      call.deal.dealId = b.deal.dealId ∧ List.Forall₂ Event.Same call.events b.events ∧
      call.records = b.authorityRecords ∧ call.revocations = b.revocations := by
  obtain ⟨signature, -, hverify⟩ := hv.signed
  obtain ⟨item, hitem, hpayload⟩ := hu.ideal signature _ hverify
  obtain ⟨call, rfl, hdeal, -, hsummary⟩ :=
    SignedItem.summary_of_form (Json.canonicalBytes_inj.1 hpayload)
  -- the summary of the export carries the digests of its sections
  have hevents : sectionSha256 (call.events.map Event.toJson) =
      sectionSha256 (b.events.map Event.toJson) :=
    (congrArg BundleSummary.chainSha256 hsummary).trans hv.chain
  have hrecords : sectionSha256 (call.records.map AuthorityRecord.toJson) =
      sectionSha256 (b.authorityRecords.map AuthorityRecord.toJson) :=
    (congrArg BundleSummary.recordsSha256 hsummary).trans hv.records
  have hrevocations : sectionSha256 (call.revocations.map Revocation.toJson) =
      sectionSha256 (b.revocations.map Revocation.toJson) :=
    (congrArg BundleSummary.revocationsSha256 hsummary).trans hv.revocations
  exact ⟨call, hitem, hu.key call hitem, hdeal,
    (Json.arr_map_inj (hf.normalize_eq hevents)).imp fun _ _ => Event.same_of_normalize,
    Json.arr_eq_of_normalize (fun _ _ => AuthorityRecord.eq_of_normalize)
      (hf.normalize_eq hrecords),
    Json.arr_eq_of_normalize (fun _ _ => Revocation.eq_of_normalize)
      (hf.normalize_eq hrevocations)⟩

/-- A bundle that verifies has the deal, the events, the records and the
    revocations of one export under the key. -/
theorem verified_bundle_exported {log : List SignedItem} {expectedKey : ExpectedKey}
    (hf : CollisionFree) (hu : ChainKeyUse publicKey log)
    (hkey : expectedKey.load = .ok publicKey) (h : (verifyBundle b expectedKey).ok = true) :
    ∃ call, .summary call ∈ log ∧ call.signer.publicKey = publicKey ∧
      call.deal.dealId = b.deal.dealId ∧ List.Forall₂ Event.Same call.events b.events ∧
      call.records = b.authorityRecords ∧ call.revocations = b.revocations :=
  ((verifyBundle_ok hkey).1 h).exported hf hu

end

/-! ## One export -/

open Sample

def Sample.export : BundleCall :=
  ⟨now.text, { dealId, state := .negotiating }, start.text, [opening, received, counterOffer],
    [record], [], signer⟩

def Sample.uses : List SignedItem :=
  [.event opening, .event received, .event counterOffer, .summary Sample.export]

/-- A platform on which only the payloads of these uses verify. -/
@[reducible] def Sample.anchored : Platform :=
  { Sample.platform with
    ed25519Verify := fun publicKey signature payload =>
      signature = publicKey ∧ payload ∈ uses.map (@SignedItem.payload Sample.platform) }

attribute [local instance] Sample.anchored

theorem Sample.uses_ideal : ChainKeyUse signer.publicKey uses where
  ideal signature payload h := by
    obtain ⟨-, hm⟩ := of_decide_eq_true h
    exact List.mem_map.1 hm
  key call hm := by
    simp only [uses, List.mem_cons, List.not_mem_nil, or_false, reduceCtorEq, false_or,
      SignedItem.summary.injEq] at hm
    subst hm
    rfl

/-- What the signer signs for one of the uses verifies. -/
theorem Sample.use_signed (item : SignedItem) (h : item ∈ uses) :
    ∃ raw, b64urlDecode (signer.signBytes item.payload) = .ok raw ∧
      Platform.ed25519Verify signer.publicKey raw item.payload :=
  ⟨signer.publicKey, b64urlDecode_b64urlEncode (List.cons_ne_nil _ _),
    decide_eq_true ⟨rfl, List.mem_map_of_mem h⟩⟩

theorem Sample.export_verifies : Sample.export.bundle.Verifies signer.publicKey := by
  refine buildBundle_verifies ?_ (use_signed (.summary Sample.export) (by simp [uses])) ?_
  · have hintact : ∀ {n : Char} {seq : ℕ} {prevHash event fromState toState : String},
        .event (moved n seq prevHash event fromState toState) ∈ uses →
          (moved n seq prevHash event fromState toState).Intact signer.publicKey seq prevHash := by
      intro n seq prevHash event fromState toState hm
      obtain ⟨hpayload, hevent, halgorithm, -, hsequence, hlink⟩ :=
        moved_intact n seq prevHash event fromState toState
      exact ⟨hpayload, hevent, halgorithm, use_signed (.event _) hm, hsequence, hlink⟩
    have hopening : .event opening ∈ uses := by simp [uses]
    have hreceived : .event received ∈ uses := by simp [uses]
    have hcountered : .event counterOffer ∈ uses := by simp [uses]
    exact intact_iff.2 ⟨hintact hopening, hintact hreceived, hintact hcountered, trivial⟩
  · rintro last hlast
    cases hlast
    rfl

theorem verified_bundle_exported_export :
    ∃ call, .summary call ∈ Sample.uses ∧ call.signer.publicKey = signer.publicKey ∧
      call.deal.dealId = dealId ∧
      List.Forall₂ Event.Same call.events [opening, received, counterOffer] ∧
      call.records = [record] ∧ call.revocations = [] := by
  have hok : (verifyBundle Sample.export.bundle (.key signer.publicKey)).ok = true :=
    (verifyBundle_ok rfl).2 Sample.export_verifies
  exact verified_bundle_exported Sample.collisionFree Sample.uses_ideal rfl hok

end Mandate
