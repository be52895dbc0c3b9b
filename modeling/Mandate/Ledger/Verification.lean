/-
  The tamper detector of a chain of events.

  `verifyChain` recomputes every hash, and checks sequence, linkage and
  signatures in one pass.  It accepts exactly the chains that are intact
  position by position (`verifyChain_ok`), its first failure is at the first
  position that is not (`verifyChain_firstFailure`), and the hash of the last
  event fixes all that the canonical forms cover (`head_fixes_chain`).
-/
import Mandate.Ledger.Chain
import Mandate.Lib.HashChain

namespace Mandate

section
variable [Platform]

/-! ## Checks -/

inductive EventCheck where
  | payloadHash | eventHash | signature | sequence | chainLink
deriving DecidableEq, Repr

def EventCheck.value : EventCheck → String
  | payloadHash => "payload_hash"
  | eventHash => "event_hash"
  | signature => "signature"
  | sequence => "sequence"
  | chainLink => "chain_link"

/-- One check of the event at an index. -/
structure ChainCheck where
  index : ℕ
  check : EventCheck
  ok : Bool
  detail : String

def ChainCheck.name (c : ChainCheck) : String := s!"event_{c.index}_{c.check.value}"

structure ChainReport where
  dealId : String
  ok : Bool
  checks : List ChainCheck

def ChainReport.firstFailure (r : ChainReport) : Option ChainCheck := r.checks.find? (!·.ok)

/-- The class of the exception that decoding and verifying a signature raises. -/
def signatureException (publicKey payload : Bytes) (value : String) : Option String :=
  match b64urlDecode value with
  | .error _ =>
    if value.toList ≠ [] ∧ value.toList.all (· ∈ b64urlAlphabet) then some "Error"
    else some "ValueError"
  | .ok raw =>
    if Platform.ed25519Verify publicKey raw payload then none else some "InvalidSignature"

/-- `_verify_sig`. -/
def verifySig (publicKey payload : Bytes) (signature : EventSignature) : Bool × String :=
  if signature.algorithm ≠ algorithm then
    (false, s!"unexpected algorithm {pyRepr signature.algorithm}")
  else match signatureException publicKey payload signature.value with
    | some exception => (false, s!"invalid signature: {exception}")
    | none => (true, "ok")

/-- The checks of one event, after an event with hash `previous`. -/
def checkEvent (publicKey : Bytes) (index : ℕ) (previous : String) (event : Event) :
    List ChainCheck :=
  let payloadOk := event.payloadHash = canonicalSha256Hex (.obj event.payload)
  let hashOk := event.eventHash = Platform.sha256Hex event.signingBytes
  let sig := verifySig publicKey event.signingBytes event.signature
  let seqOk := event.sequenceNumber = index
  let linkOk := event.previousEventHash = previous
  [⟨index, .payloadHash, payloadOk,
      if payloadOk then "ok" else "payload_hash does not match payload"⟩,
    ⟨index, .eventHash, hashOk,
      if hashOk then "ok" else "event_hash does not match the canonical event form"⟩,
    ⟨index, .signature, sig.1, sig.2⟩,
    ⟨index, .sequence, seqOk,
      if seqOk then "ok" else s!"sequence {event.sequenceNumber}, expected {index}"⟩,
    ⟨index, .chainLink, linkOk,
      if linkOk then "ok" else "previous_event_hash does not equal the prior event's event_hash"⟩]

/-- Recompute and check the whole chain. -/
def verifyChain (events : List Event) (publicKey : Bytes) : ChainReport :=
  let checks :=
    HashChain.scan Event.eventHash ChainCheck.ok (checkEvent publicKey) 0 genesisHash events
  { dealId := (events.head?.map Event.dealId).getD ""
    ok := checks.all ChainCheck.ok
    checks }

/-! ## Intact chains -/

/-- The event's hashes are those of its own content, its signature verifies, and
    it is the event with this index after an event with hash `previous`. -/
structure Event.Intact (publicKey : Bytes) (index : ℕ) (previous : String) (e : Event) : Prop where
  payloadHash : e.payloadHash = canonicalSha256Hex (.obj e.payload)
  eventHash : e.eventHash = Platform.sha256Hex e.signingBytes
  algorithm : e.signature.algorithm = Mandate.algorithm
  signed : ∃ raw, b64urlDecode e.signature.value = .ok raw ∧
    Platform.ed25519Verify publicKey raw e.signingBytes
  sequence : e.sequenceNumber = index
  link : e.previousEventHash = previous

/-- Every event of the chain is intact: that at index `i` after the event at
    index `i - 1`, and the first after the genesis hash. -/
def Intact (events : List Event) (publicKey : Bytes) : Prop :=
  ∀ (i : ℕ) (e : Event), events[i]? = some e →
    e.Intact publicKey i (HashChain.prevAt Event.eventHash genesisHash events i)

/-- The events are intact from index `i` and hash `previous` on. -/
abbrev IntactFrom (publicKey : Bytes) : ℕ → String → List Event → Prop :=
  HashChain.Chained Event.eventHash (Event.Intact publicKey)

variable {publicKey : Bytes} {events events' : List Event}

theorem intact_iff : Intact events publicKey ↔ IntactFrom publicKey 0 genesisHash events :=
  HashChain.chained_iff.symm

theorem signatureException_eq_none {payload : Bytes} {value : String} :
    signatureException publicKey payload value = none ↔
      ∃ raw, b64urlDecode value = .ok raw ∧ Platform.ed25519Verify publicKey raw payload := by
  unfold signatureException
  cases b64urlDecode value with
  | error e =>
    simp only [reduceCtorEq, false_and, exists_false, iff_false]
    split_ifs <;> simp
  | ok raw => simp

theorem verifySig_iff {payload : Bytes} {signature : EventSignature} :
    (verifySig publicKey payload signature).1 = true ↔ signature.algorithm = algorithm ∧
      ∃ raw, b64urlDecode signature.value = .ok raw ∧
        Platform.ed25519Verify publicKey raw payload := by
  unfold verifySig
  rw [← signatureException_eq_none]
  split_ifs with ha
  · simp [ha]
  · cases signatureException publicKey payload signature.value <;> simp [not_not.1 ha]

theorem checkEvent_ok (index : ℕ) (previous : String) (e : Event) :
    (checkEvent publicKey index previous e).all ChainCheck.ok ↔
      e.Intact publicKey index previous := by
  simp only [checkEvent, List.all_cons, List.all_nil, Bool.and_true, Bool.and_eq_true,
    decide_eq_true_eq, verifySig_iff]
  constructor
  · rintro ⟨hp, he, ⟨ha, hs⟩, hn, hl⟩
    exact ⟨hp, he, ha, hs, hn, hl⟩
  · rintro ⟨hp, he, ha, hs, hn, hl⟩
    exact ⟨hp, he, ⟨ha, hs⟩, hn, hl⟩

/-- The verifier accepts the intact chains. -/
theorem verifyChain_ok : (verifyChain events publicKey).ok = true ↔ Intact events publicKey :=
  (HashChain.scan_ok checkEvent_ok).trans intact_iff.symm

theorem mem_checkEvent {index : ℕ} {previous : String} {e : Event} {c : ChainCheck}
    (h : c ∈ checkEvent publicKey index previous e) : c.index = index := by
  simp only [checkEvent, List.mem_cons, List.not_mem_nil, or_false] at h
  rcases h with rfl | rfl | rfl | rfl | rfl <;> rfl

theorem exists_firstFailure (h : ¬ Intact events publicKey) :
    ∃ c, (verifyChain events publicKey).firstFailure = some c := by
  rw [← verifyChain_ok] at h
  cases hf : (verifyChain events publicKey).firstFailure with
  | some c => exact ⟨c, rfl⟩
  | none =>
    refine absurd (List.all_eq_true.2 fun c hc => ?_) h
    simpa using List.find?_eq_none.1 hf c hc

/-- Its first failure is at the first event that is not intact. -/
theorem verifyChain_firstFailure {c : ChainCheck}
    (h : (verifyChain events publicKey).firstFailure = some c) :
    Intact (events.take c.index) publicKey ∧ ∃ e, events[c.index]? = some e ∧
      ¬ e.Intact publicKey c.index
        (HashChain.prevAt Event.eventHash genesisHash events c.index) := by
  obtain ⟨i, e, he, hbefore, hbad, hfind⟩ := HashChain.scan_first checkEvent_ok h
  rw [mem_checkEvent (List.mem_of_find?_eq_some hfind)]
  exact ⟨intact_iff.2 hbefore, e, he, hbad⟩

/-- The signer's signatures verify. -/
def GatewaySigner.Signs (signer : GatewaySigner) : Prop :=
  ∀ payload, Platform.ed25519Sign signer.privateKey payload ≠ [] ∧
    Platform.ed25519Verify signer.publicKey (Platform.ed25519Sign signer.privateKey payload) payload

theorem GatewaySigner.Signs.signBytes {signer : GatewaySigner} (hs : signer.Signs)
    (payload : Bytes) : ∃ raw, b64urlDecode (signer.signBytes payload) = .ok raw ∧
      Platform.ed25519Verify signer.publicKey raw payload :=
  ⟨_, b64urlDecode_b64urlEncode (hs payload).1, (hs payload).2⟩

/-- A signature of the gateway verifies under its key. -/
theorem GatewaySigner.Signs.checkSignature {signer : GatewaySigner} (hs : signer.Signs)
    (payload : Bytes) : (checkSignature payload ⟨algorithm, signer.keyId, signer.signBytes payload⟩
      signer.publicKey (some signer.keyId)).valid = true := by
  obtain ⟨raw, hraw, hverify⟩ := hs.signBytes payload
  simp [Mandate.checkSignature, hraw, hverify]

/-- A built event is intact where it is put. -/
theorem buildEvent_intact {signer : GatewaySigner} (hs : signer.Signs) (h : EventHeader)
    (id : String) (n : ℕ) (t : EventType) (prev : String) (p : Payload) :
    (buildEvent signer h id n t prev p).Intact signer.publicKey n prev where
  payloadHash := rfl
  eventHash := rfl
  algorithm := rfl
  signed := hs.signBytes _
  sequence := rfl
  link := rfl

/-! ## What the head fixes -/

/-- The events agree in all that the canonical form covers; payloads are objects,
    whose members have no order. -/
structure Event.SameForm (e e' : Event) : Prop where
  eventId : e.eventId = e'.eventId
  dealId : e.dealId = e'.dealId
  sequenceNumber : e.sequenceNumber = e'.sequenceNumber
  eventType : e.eventType = e'.eventType
  actorKind : e.actorKind = e'.actorKind
  actorId : e.actorId = e'.actorId
  authorityRecordId : e.authorityRecordId = e'.authorityRecordId
  previousEventHash : e.previousEventHash = e'.previousEventHash
  payloadHash : e.payloadHash = e'.payloadHash
  eventHash : e.eventHash = e'.eventHash
  payload : Json.normalize (.obj e.payload) = Json.normalize (.obj e'.payload)
  occurredAt : e.occurredAt = e'.occurredAt
  recordedAt : e.recordedAt = e'.recordedAt

omit [Platform] in
theorem EventType.value_inj {t t' : EventType} (h : t.value = t'.value) : t = t' :=
  StrEnum.value_inj h

omit [Platform] in
theorem ActorKind.value_inj {k k' : ActorKind} (h : k.value = k'.value) : k = k' :=
  StrEnum.value_inj h

omit [Platform] in
/-- The canonical form determines the event, but for its hash. -/
theorem Event.sameForm_of_canonicalForm {e e' : Event}
    (h : Json.normalize e.canonicalForm = Json.normalize e'.canonicalForm)
    (heq : e.eventHash = e'.eventHash) : e.SameForm e' := by
  have key := Json.member_inj (by simp) (by simp) h
  exact {
    eventId := Json.normalize_str_inj (Option.some.inj (key "event_id"))
    dealId := Json.normalize_str_inj (Option.some.inj (key "deal_id"))
    sequenceNumber := Int.ofNat.inj (Json.normalize_int_inj (Option.some.inj
      (key "sequence_number")))
    eventType := EventType.value_inj (Json.normalize_str_inj (Option.some.inj (key "event_type")))
    actorKind := ActorKind.value_inj (Json.normalize_str_inj (Option.some.inj (key "actor_kind")))
    actorId := Json.normalize_str_inj (Option.some.inj (key "actor_id"))
    authorityRecordId := optStr_inj (Option.some.inj (key "authority_record_id"))
    previousEventHash := Json.normalize_str_inj (Option.some.inj (key "previous_event_hash"))
    payloadHash := Json.normalize_str_inj (Option.some.inj (key "payload_hash"))
    eventHash := heq
    payload := Option.some.inj (key "payload")
    occurredAt := Json.normalize_str_inj (Option.some.inj (key "occurred_at"))
    recordedAt := Json.normalize_str_inj (Option.some.inj (key "recorded_at")) }

/-- Events with one hash of their content are the same event. -/
theorem Event.sameForm_of_eventHash (hf : CollisionFree) {e e' : Event}
    (h : e.eventHash = Platform.sha256Hex e.signingBytes)
    (h' : e'.eventHash = Platform.sha256Hex e'.signingBytes) (heq : e.eventHash = e'.eventHash) :
    e.SameForm e' := by
  have hdigest : canonicalSha256Hex e.canonicalForm = canonicalSha256Hex e'.canonicalForm := by
    rw [h, h'] at heq
    exact heq
  exact sameForm_of_canonicalForm (hf.normalize_eq hdigest) heq

/-- Intact events with one hash are the same, and come after the same hash. -/
theorem Event.Intact.same (hf : CollisionFree) {i : ℕ} {prev prev' : String} {e e' : Event}
    (h : e.Intact publicKey i prev) (h' : e'.Intact publicKey i prev')
    (heq : e.eventHash = e'.eventHash) : e.SameForm e' ∧ prev = prev' := by
  have hsame := sameForm_of_eventHash hf h.eventHash h'.eventHash heq
  exact ⟨hsame, h.link.symm.trans (hsame.previousEventHash.trans h'.link)⟩

/-- Two chains that the verifier accepts agree up to every index where they have
    one hash; with one hash at their heads they are the same. -/
theorem head_fixes_chain (hf : CollisionFree) (h : (verifyChain events publicKey).ok = true)
    (h' : (verifyChain events' publicKey).ok = true) :
    (∀ (i : ℕ) (e e' : Event), events[i]? = some e → events'[i]? = some e' →
      e.eventHash = e'.eventHash → ∀ j ≤ i, ∃ d d', events[j]? = some d ∧ events'[j]? = some d' ∧
        d.SameForm d') ∧
      (events.length = events'.length →
        events.getLast?.map Event.eventHash = events'.getLast?.map Event.eventHash →
        List.Forall₂ Event.SameForm events events') := by
  rw [verifyChain_ok, intact_iff] at h h'
  have hupto : ∀ (i : ℕ) (e e' : Event), events[i]? = some e → events'[i]? = some e' →
      e.eventHash = e'.eventHash → ∀ j ≤ i, ∃ d d', events[j]? = some d ∧ events'[j]? = some d' ∧
        d.SameForm d' := by
    intro i e e' he he' heq j hj
    have hb : ∀ (i : ℕ) (prev prev' : String) (e e' : Event), e.Intact publicKey i prev →
        e'.Intact publicKey i prev' → e.eventHash = e'.eventHash → e.SameForm e' ∧ prev = prev' :=
      fun _ _ _ _ _ => Event.Intact.same hf
    obtain ⟨d, d', hd, hd', hsame, -⟩ := HashChain.agree_upto hb h h' he he' heq j hj
    exact ⟨d, d', hd, hd', hsame⟩
  refine ⟨hupto, fun hlen hlast => ?_⟩
  rw [List.forall₂_iff_get]
  refine ⟨hlen, fun j hj hj' => ?_⟩
  rw [List.getLast?_eq_getElem?, List.getLast?_eq_getElem?, ← hlen] at hlast
  have hhead : events.length - 1 < events.length := by omega
  have hhead' : events.length - 1 < events'.length := by omega
  rw [List.getElem?_eq_getElem hhead, List.getElem?_eq_getElem hhead', Option.map_some,
    Option.map_some, Option.some.injEq] at hlast
  obtain ⟨d, d', hd, hd', hsame⟩ := hupto _ _ _ (List.getElem?_eq_getElem hhead)
    (List.getElem?_eq_getElem hhead') hlast j (by omega)
  rw [List.getElem?_eq_getElem hj, Option.some.injEq] at hd
  rw [List.getElem?_eq_getElem hj', Option.some.injEq] at hd'
  subst hd hd'
  exact hsame

end

/-! ## Chains with one head -/

open Sample

attribute [local instance] Sample.platform

theorem Sample.signer_signs : signer.Signs :=
  fun _ => ⟨List.cons_ne_nil _ _, decide_eq_true rfl⟩

/-- A transition of the deal, at its place in the chain. -/
def Sample.moved (n : Char) (seq : ℕ) (prevHash event fromState toState : String) : Event :=
  buildEvent signer ⟨dealId, .principal, ulid 'P', none, now.text, now.text⟩ (ulid n) seq
    .stateTransition prevHash [("event", .str event), ("from_state", .str fromState),
      ("to_state", .str toState)]

/-- The first event of a deal, and the two that follow it. -/
def Sample.opening : Event :=
  moved 'E' 0 genesisHash "quote_requested" "DRAFT" "QUOTE_REQUESTED"

def Sample.received : Event :=
  moved 'F' 1 opening.eventHash "quote_received" "QUOTE_REQUESTED" "QUOTE_RECEIVED"

def Sample.counterOffer : Event :=
  moved 'K' 2 received.eventHash "counteroffered" "QUOTE_RECEIVED" "NEGOTIATING"

/-- The first event with the key of its signature renamed, which no canonical form
    covers. -/
def Sample.relabelled : Event :=
  { opening with signature := { opening.signature with keyId := "other-key" } }

theorem Sample.moved_intact (n : Char) (seq : ℕ) (prevHash event fromState toState : String) :
    (moved n seq prevHash event fromState toState).Intact signer.publicKey seq prevHash :=
  buildEvent_intact signer_signs ..

theorem Sample.opening_intact : opening.Intact signer.publicKey 0 genesisHash :=
  moved_intact 'E' 0 genesisHash _ _ _

/-- An intact first event with the hash of the opening begins the chain. -/
theorem Sample.begins_chain {e : Event} (h : e.Intact signer.publicKey 0 genesisHash)
    (heq : e.eventHash = opening.eventHash) : Intact [e, received, counterOffer] signer.publicKey := by
  have hreceived : received.Intact signer.publicKey 1 e.eventHash := by
    rw [heq]
    exact moved_intact 'F' 1 opening.eventHash _ _ _
  have hcountered : counterOffer.Intact signer.publicKey 2 received.eventHash :=
    moved_intact 'K' 2 received.eventHash _ _ _
  exact intact_iff.2 ⟨h, hreceived, hcountered, trivial⟩

theorem head_fixes_chain_relabelled :
    List.Forall₂ Event.SameForm [Sample.opening, Sample.received, Sample.counterOffer]
      [Sample.relabelled, Sample.received, Sample.counterOffer] := by
  have hopening := Sample.opening_intact
  have hrelabelled : Sample.relabelled.Intact signer.publicKey 0 genesisHash :=
    ⟨hopening.payloadHash, hopening.eventHash, hopening.algorithm, hopening.signed,
      hopening.sequence, hopening.link⟩
  have hok := verifyChain_ok.2 (Sample.begins_chain hopening rfl)
  have hok' := verifyChain_ok.2 (Sample.begins_chain hrelabelled rfl)
  exact (head_fixes_chain Sample.collisionFree hok hok').2 rfl rfl

end Mandate
