/-
  The six kinds of signed objects and their signing payloads.

  Each kind has a key that no other kind's payload has, and its payload
  determines every field it covers.  So two objects with one signing payload
  are of one kind and the same but for the signature, and a signature fits one
  object only (`one_canonical_form`).
-/
import Mandate.Lib.JsonEquality
import Mandate.Transport.Envelope
import Mandate.Ledger.Evidence

namespace Mandate

inductive SignedObject where
  | authorityRecord (r : AuthorityRecord)
  | revocation (r : Revocation)
  | approvalRecord (r : ApprovalRecord)
  | event (e : Event)
  | envelope (env : WireEnvelope)
  | summary (dealId keyId : String) (s : BundleSummary)

namespace SignedObject

/-! ## What is signed -/

/-- The fields that the signature covers. -/
def fields : SignedObject → List (String × Json)
  | authorityRecord r => r.unsignedFields
  | revocation r => r.unsignedFields
  | approvalRecord r => r.unsignedFields
  | event e => match e.canonicalForm with
    | .obj fields => fields
    | _ => []
  | envelope env => env.unsignedFields
  | summary dealId keyId s => match summaryForm dealId keyId s with
    | .obj fields => fields
    | _ => []

def signingPayload : SignedObject → Bytes
  | authorityRecord r => recordSigningPayload r
  | revocation r => revocationSigningPayload r
  | approvalRecord r => approvalSigningPayload r
  | event e => e.signingBytes
  | envelope env => envelopeSigningPayload env
  | summary dealId keyId s => summarySigningBytes dealId keyId s

theorem signingPayload_eq (o : SignedObject) :
    o.signingPayload = Json.canonicalBytes (.obj o.fields) := by
  cases o <;> rfl

/-- The payload of an event or an envelope is a JSON object. -/
def WellFormed : SignedObject → Prop
  | event e => Json.Distinct (.obj e.payload)
  | envelope env => Json.Distinct (.obj env.payload.entries)
  | _ => True

/-- One kind, and the same in every field but the signature (and the hash of an
    event). -/
def SameUnsigned : SignedObject → SignedObject → Prop
  | authorityRecord r, authorityRecord r' => { r with signature := r'.signature } = r'
  | revocation r, revocation r' => { r with signature := r'.signature } = r'
  | approvalRecord r, approvalRecord r' => { r with signature := r'.signature } = r'
  | event e, event e' =>
    { e with eventHash := e'.eventHash, signature := e'.signature, payload := e'.payload } = e' ∧
      Json.Same (.obj e.payload) (.obj e'.payload)
  | envelope env, envelope env' =>
    { env with signature := env'.signature, payload := env'.payload } = env' ∧
      Json.Same (.obj env.payload.entries) (.obj env'.payload.entries)
  | summary dealId keyId s, summary dealId' keyId' s' =>
    dealId = dealId' ∧ keyId = keyId' ∧ s = s'
  | _, _ => False

/-! ## The kinds -/

/-- A key that only the payloads of one kind have. -/
def tag : SignedObject → String
  | authorityRecord _ => "principal_id"
  | revocation _ => "revocation_id"
  | approvalRecord _ => "approval_record_id"
  | event _ => "event_id"
  | envelope _ => "message_id"
  | summary .. => "verification"

theorem nodup_fields (o : SignedObject) : (o.fields.map Prod.fst).Nodup := by
  cases o <;>
    simp [fields, AuthorityRecord.unsignedFields, Revocation.unsignedFields,
      ApprovalRecord.unsignedFields, Event.canonicalForm, WireEnvelope.unsignedFields, summaryForm]

theorem tag_mem (o : SignedObject) : o.tag ∈ o.fields.map Prod.fst := by
  cases o <;>
    simp [tag, fields, AuthorityRecord.unsignedFields, Revocation.unsignedFields,
      ApprovalRecord.unsignedFields, Event.canonicalForm, WireEnvelope.unsignedFields, summaryForm]

/-- No payload has the key of another kind. -/
theorem tag_eq_of_mem {o o' : SignedObject} (h : o.tag ∈ o'.fields.map Prod.fst) :
    o.tag = o'.tag := by
  cases o <;> cases o' <;>
    first
    | rfl
    | simp [tag, fields, AuthorityRecord.unsignedFields, Revocation.unsignedFields,
        ApprovalRecord.unsignedFields, Event.canonicalForm, WireEnvelope.unsignedFields,
        summaryForm] at h

variable {o o' : SignedObject}

theorem tag_eq (h : Json.normalize (.obj o.fields) = Json.normalize (.obj o'.fields)) :
    o.tag = o'.tag := by
  refine tag_eq_of_mem ?_
  have hsome := congrArg Option.isSome (Json.member_inj o.nodup_fields o'.nodup_fields h o.tag)
  rw [Option.isSome_map, Option.isSome_map, Dict.isSome_getEntries.2 o.tag_mem] at hsome
  exact Dict.isSome_getEntries.1 hsome.symm

end SignedObject

/-! ## What the payloads determine -/

/-- Two objects that agree before the signature agree with one signature. -/
theorem normalize_signed {fs gs : List (String × Json)} (s : SignatureBlock)
    (hf : ((fs ++ [("signature", s.toJson)]).map Prod.fst).Nodup)
    (hg : ((gs ++ [("signature", s.toJson)]).map Prod.fst).Nodup)
    (h : Json.normalize (.obj fs) = Json.normalize (.obj gs)) :
    Json.normalize (.obj (fs ++ [("signature", s.toJson)])) =
      Json.normalize (.obj (gs ++ [("signature", s.toJson)])) :=
  Json.normalize_obj_append hf hg h

theorem AuthorityRecord.eq_of_unsigned {r r' : AuthorityRecord}
    (h : Json.normalize (.obj r.unsignedFields) = Json.normalize (.obj r'.unsignedFields)) :
    { r with signature := r'.signature } = r' :=
  eq_of_normalize (normalize_signed r'.signature (by simp [unsignedFields])
    (by simp [unsignedFields]) h)

theorem Revocation.eq_of_unsigned {r r' : Revocation}
    (h : Json.normalize (.obj r.unsignedFields) = Json.normalize (.obj r'.unsignedFields)) :
    { r with signature := r'.signature } = r' :=
  eq_of_normalize (normalize_signed r'.signature (by simp [unsignedFields])
    (by simp [unsignedFields]) h)

theorem ApprovalRecord.eq_of_unsigned {r r' : ApprovalRecord}
    (h : Json.normalize (.obj r.unsignedFields) = Json.normalize (.obj r'.unsignedFields)) :
    { r with signature := r'.signature } = r' := by
  have key := Json.member_inj (by simp [unsignedFields]) (by simp [unsignedFields]) h
  have h₁ := Json.normalize_str_inj (Option.some.inj (key "schema_version"))
  have h₂ := Json.normalize_str_inj (Option.some.inj (key "approval_record_id"))
  have h₃ := Json.normalize_str_inj (Option.some.inj (key "deal_id"))
  have h₄ := Json.normalize_str_inj (Option.some.inj (key "request_id"))
  have h₅ := Json.normalize_str_inj (Option.some.inj (key "parent_authority_record_id"))
  have h₆ := Json.normalize_str_inj (Option.some.inj (key "action"))
  have h₇ : r.amountMinor = r'.amountMinor :=
    Option.map_injective Int.ofNat_injective (optInt_inj (Option.some.inj (key "amount_minor")))
  have h₈ := Json.normalize_str_inj (Option.some.inj (key "currency"))
  have h₉ := Json.normalize_str_inj (Option.some.inj (key "proposal_digest"))
  have h₁₀ := Timestamp.ext_text (Json.normalize_str_inj (Option.some.inj (key "issued_at")))
  cases r
  cases r'
  simp_all only

theorem Event.eq_of_canonicalForm {e e' : Event}
    (h : Json.normalize e.canonicalForm = Json.normalize e'.canonicalForm) :
    { e with eventHash := e'.eventHash, signature := e'.signature, payload := e'.payload } = e' ∧
      Json.normalize (.obj e.payload) = Json.normalize (.obj e'.payload) := by
  have hsame : Event.SameForm { e with eventHash := e'.eventHash } e' :=
    sameForm_of_canonicalForm h rfl
  refine ⟨?_, hsame.payload⟩
  obtain ⟨h₁, h₂, h₃, h₄, h₅, h₆, h₇, h₈, h₉, -, -, h₁₀, h₁₁⟩ := hsame
  cases e
  cases e'
  simp_all only

theorem WireEnvelope.eq_of_unsigned {env env' : WireEnvelope}
    (h : Json.normalize (.obj env.unsignedFields) = Json.normalize (.obj env'.unsignedFields)) :
    { env with signature := env'.signature, payload := env'.payload } = env' ∧
      Json.normalize (.obj env.payload.entries) = Json.normalize (.obj env'.payload.entries) := by
  have key := Json.member_inj (by simp [unsignedFields]) (by simp [unsignedFields]) h
  refine ⟨?_, Option.some.inj (key "payload")⟩
  have h₁ := Json.normalize_str_inj (Option.some.inj (key "schema_version"))
  have h₂ := Json.normalize_str_inj (Option.some.inj (key "message_id"))
  have h₃ := Json.normalize_str_inj (Option.some.inj (key "idempotency_key"))
  have h₄ := Json.normalize_str_inj (Option.some.inj (key "sender_id"))
  have h₅ := Json.normalize_str_inj (Option.some.inj (key "recipient_id"))
  have h₆ := MessageKind.value_inj (Json.normalize_str_inj (Option.some.inj (key "kind")))
  have h₇ := Timestamp.ext_text (Json.normalize_str_inj (Option.some.inj (key "issued_at")))
  cases env
  cases env'
  simp_all only

/-- Objects with one signing payload are the same before the signature. -/
theorem SignedObject.sameUnsigned {o o' : SignedObject} (hw : o.WellFormed) (hw' : o'.WellFormed)
    (h : o.signingPayload = o'.signingPayload) : SameUnsigned o o' := by
  rw [signingPayload_eq, signingPayload_eq, Json.canonicalBytes_inj] at h
  have htag := tag_eq h
  -- two kinds have two tags
  cases o <;> cases o' <;> first | (simp [tag] at htag; done) | skip
  case authorityRecord.authorityRecord => exact AuthorityRecord.eq_of_unsigned h
  case revocation.revocation => exact Revocation.eq_of_unsigned h
  case approvalRecord.approvalRecord => exact ApprovalRecord.eq_of_unsigned h
  case event.event e e' =>
    obtain ⟨heq, hpayload⟩ := Event.eq_of_canonicalForm h
    exact ⟨heq, (Json.normalize_eq_iff _ _ hw hw').1 hpayload⟩
  case envelope.envelope env env' =>
    obtain ⟨heq, hpayload⟩ := WireEnvelope.eq_of_unsigned h
    exact ⟨heq, (Json.normalize_eq_iff _ _ hw hw').1 hpayload⟩
  case summary.summary => exact summaryForm_inj h

/-! ## Signatures -/

/-- A signature of a key fits one payload only. -/
def OnePayload [Platform] : Prop :=
  ∀ publicKey signature payload payload', Platform.ed25519Verify publicKey signature payload →
    Platform.ed25519Verify publicKey signature payload' → payload = payload'

/-- The signature text verifies for the object under the key. -/
def SignedObject.Verifies [Platform] (o : SignedObject) (publicKey : Bytes) (text : String) : Prop :=
  ∃ signature, b64urlDecode text = .ok signature ∧
    Platform.ed25519Verify publicKey signature o.signingPayload

/-- Canonical bytes are equal exactly for equal values; signing payloads are equal
    only for one object, whatever its kind; so no signature verifies for
    another. -/
theorem one_canonical_form [Platform] :
    (∀ v w : Json, v.Distinct → w.Distinct →
      (Json.canonicalBytes v = Json.canonicalBytes w ↔ v.Same w)) ∧
    (∀ o o' : SignedObject, o.WellFormed → o'.WellFormed → o.signingPayload = o'.signingPayload →
      o.SameUnsigned o') ∧
    (OnePayload → ∀ (o o' : SignedObject) (publicKey : Bytes) (text : String), o.WellFormed →
      o'.WellFormed → o.Verifies publicKey text → o'.Verifies publicKey text →
      o.SameUnsigned o') := by
  refine ⟨fun v w => Json.canonicalBytes_eq_iff, fun o o' => SignedObject.sameUnsigned, ?_⟩
  rintro hone o o' publicKey text hw hw' ⟨signature, hd, hv⟩ ⟨signature', hd', hv'⟩
  obtain rfl := Except.ok.inj (hd.symm.trans hd')
  exact SignedObject.sameUnsigned hw hw' (hone _ _ _ _ hv hv')

section
open Sample

/-- A platform on which a signature is what it signs. -/
@[reducible] def Sample.sealing : Platform :=
  { Sample.platform with
    ed25519Sign := fun _ payload => payload
    ed25519Verify := fun _ signature payload => signature = payload }

attribute [local instance] Sample.sealing

/-- The terms of an offer in two orders. -/
def Sample.amountTerms : Dict String Json :=
  ⟨[("amount_minor", .int 100), ("currency", .str "EUR")], by simp⟩

def Sample.currencyTerms : Dict String Json :=
  ⟨[("currency", .str "EUR"), ("amount_minor", .int 100)], by simp⟩

/-- A proposal of terms with a signature text. -/
def Sample.tendered (payload : Dict String Json) (text : String) : SignedObject :=
  .envelope
    { schemaVersion := "0.1", messageId := ulid '1', idempotencyKey := ulid '1'
      senderId := ulid 'Q', recipientId := ulid 'G', kind := .proposal, payload, issuedAt := now
      signature := ⟨algorithm, ulid 'Q', text⟩ }

def Sample.tenderBytes : Bytes := (tendered amountTerms "").signingPayload

/-- The terms have one form in both orders, and a number and a truth value have
    two; what is signed over one order verifies for the other, and for no
    mandate. -/
theorem one_canonical_form_reordered :
    Json.canonicalBytes (.obj amountTerms.entries) =
        Json.canonicalBytes (.obj currencyTerms.entries) ∧
      Json.canonicalBytes (.int 1) ≠ Json.canonicalBytes (.bool true) ∧
      (tendered amountTerms "AQ").SameUnsigned (tendered currencyTerms "AR") ∧
      ∀ publicKey, (tendered amountTerms "AQ").Verifies publicKey (b64urlEncode tenderBytes) ∧
        (tendered currencyTerms "AR").Verifies publicKey (b64urlEncode tenderBytes) ∧
        ∀ r, ¬ (SignedObject.authorityRecord r).Verifies publicKey (b64urlEncode tenderBytes) := by
  obtain ⟨hform, hpayload, hverify⟩ := one_canonical_form
  have ha : Json.Distinct (.obj amountTerms.entries) := by
    simp [amountTerms, Json.Distinct, Json.DistinctFields]
  have hc : Json.Distinct (.obj currencyTerms.entries) := by
    simp [currencyTerms, Json.Distinct, Json.DistinctFields]
  have hbytes : (tendered amountTerms "AQ").signingPayload =
      (tendered currencyTerms "AR").signingPayload := rfl
  refine ⟨(hform _ _ ha hc).2 ?_, fun h => ?_, hpayload _ _ ha hc hbytes, fun publicKey => ?_⟩
  · refine ⟨⟨⟨.int 100, rfl, rfl⟩, ⟨.str "EUR", rfl, rfl⟩, trivial⟩, ?_⟩
    simp [amountTerms, currencyTerms]
  · have hsame := (hform (.int 1) (.bool true) trivial trivial).1 h
    exact hsame.elim
  · have hone : OnePayload := fun _ _ _ _ h h' =>
      (of_decide_eq_true h).symm.trans (of_decide_eq_true h')
    have hdecode : b64urlDecode (b64urlEncode tenderBytes) = .ok tenderBytes :=
      b64urlDecode_b64urlEncode (by decide +kernel)
    have hverifies : (tendered amountTerms "AQ").Verifies publicKey (b64urlEncode tenderBytes) :=
      ⟨tenderBytes, hdecode, decide_eq_true rfl⟩
    refine ⟨hverifies, ⟨tenderBytes, hdecode, decide_eq_true hbytes⟩, fun r hr => ?_⟩
    exact hverify hone (.authorityRecord r) (tendered amountTerms "AQ") publicKey _ trivial ha hr
      hverifies

end

end Mandate
