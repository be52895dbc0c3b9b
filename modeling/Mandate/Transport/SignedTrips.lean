/-
  Signed objects travel.

  Whatever was read of an object is read again from whatever carries what is
  written of it, over any number of trips, and is the same object with the same
  signing payload.  The exception is the currency of a spend cap, which is
  written in upper case: a record survives exactly if the upper case has three
  letters again (`signed_objects_survive_iff`).
-/
import Mandate.Ledger.EventTrips
import Mandate.Transport.Envelope

namespace Mandate

open Json

section
variable [Platform]

/-- `_v_version`. -/
def readVersion (v : Json) : Option String := (readStr v).filter fun s => s = schemaVersion

def WireEnvelope.read (v : Json) : Option WireEnvelope := do
  let fields ← readDict v
  return {
    schemaVersion := ← required fields "schema_version" readVersion
    messageId := ← required fields "message_id" readUlid
    idempotencyKey := ← required fields "idempotency_key" readUlid
    senderId := ← required fields "sender_id" readUlid
    recipientId := ← required fields "recipient_id" readUlid
    kind := ← required fields "kind" readEnum
    payload := ← required fields "payload" readDict
    issuedAt := ← required fields "issued_at" readTimestamp
    signature := ← required fields "signature" SignatureBlock.read }

/-! ## Envelopes -/

section
omit [Platform]

theorem stable_version : Stable readVersion .str := by
  intro v s h w hw
  rw [readVersion, Option.filter_eq_some_iff] at h
  rw [carries_str hw, readVersion, readStr, Option.filter_eq_some_iff]
  exact ⟨rfl, h.2⟩

/-- The envelopes are equal; payloads are objects, whose members have no order. -/
structure WireEnvelope.Same (env env' : WireEnvelope) : Prop where
  fields : env = { env' with payload := env.payload }
  payload : Json.normalize (.obj env.payload.entries) = Json.normalize (.obj env'.payload.entries)

variable {env env' : WireEnvelope}

theorem WireEnvelope.normalize_withPayload {payload : Dict String Json}
    (h : Json.normalize (.obj payload.entries) = Json.normalize (.obj env.payload.entries)) :
    Json.normalize { env with payload }.toJson = Json.normalize env.toJson ∧
      Json.normalize (.obj { env with payload }.unsignedFields) =
        Json.normalize (.obj env.unsignedFields) := by
  have hfields : normalizeFields { env with payload }.unsignedFields =
      normalizeFields env.unsignedFields := by
    simp only [WireEnvelope.unsignedFields, normalizeFields, h]
  refine ⟨normalize_obj_congr ?_, normalize_obj_congr hfields⟩
  simp only [WireEnvelope.unsignedFields, List.cons_append, List.nil_append, normalizeFields, h]

theorem WireEnvelope.Same.normalize (h : env.Same env') :
    Json.normalize env.toJson = Json.normalize env'.toJson := by
  rw [h.fields]
  exact (WireEnvelope.normalize_withPayload h.payload).1

theorem WireEnvelope.Same.signingPayload (h : env.Same env') :
    envelopeSigningPayload env = envelopeSigningPayload env' := by
  rw [h.fields]
  exact canonicalBytes_inj.2 (WireEnvelope.normalize_withPayload h.payload).2

end

/-- How an envelope is written and read. -/
def WireEnvelope.codec : Codec WireEnvelope where
  read := WireEnvelope.read
  write := WireEnvelope.toJson
  same := WireEnvelope.Same
  refl := fun _ => ⟨rfl, rfl⟩
  write_same := WireEnvelope.Same.normalize

theorem WireEnvelope.survives {v : Json} {env : WireEnvelope} (h : WireEnvelope.read v = some env) :
    WireEnvelope.codec.Survives env := by
  refine Codec.survives_iff.2 fun w hw => ?_
  obtain ⟨d, -, h⟩ := Option.bind_eq_some_iff.1 h
  obtain ⟨version, h, k₁⟩ := stable_field stable_version h
  obtain ⟨messageId, h, k₂⟩ := stable_field stable_ulid h
  obtain ⟨idempotencyKey, h, k₃⟩ := stable_field stable_ulid h
  obtain ⟨senderId, h, k₄⟩ := stable_field stable_ulid h
  obtain ⟨recipientId, h, k₅⟩ := stable_field stable_ulid h
  obtain ⟨kind, h, k₆⟩ := stable_field stable_enum h
  obtain ⟨payload, -, h⟩ := Option.bind_eq_some_iff.1 h
  obtain ⟨issuedAt, h, k₈⟩ := stable_field stable_timestamp h
  obtain ⟨signature, h, k₉⟩ := stable_field stable_signatureBlock h
  cases h
  obtain ⟨d', rfl, hd⟩ := carries_obj (by simp [WireEnvelope.unsignedFields]) hw
  obtain ⟨x, hx, hc⟩ := hd "payload" _ rfl
  obtain ⟨payload', rfl, -⟩ := carries_obj payload.nodup hc
  have hread : required d' "payload" readDict = some payload' :=
    Option.bind_eq_some_iff.2 ⟨_, hx, readDict_entries payload'⟩
  refine ⟨⟨version, messageId, idempotencyKey, senderId, recipientId, kind, payload', issuedAt,
    signature⟩, Option.bind_eq_some_iff.2 ⟨d', readDict_entries d', ?_⟩, ⟨rfl, hc.2⟩⟩
  refine k₁ hd rfl <| k₂ hd rfl <| k₃ hd rfl <| k₄ hd rfl <| k₅ hd rfl <| k₆ hd rfl <|
    Option.bind_eq_some_iff.2 ⟨payload', hread, ?_⟩
  exact k₈ hd rfl <| k₉ hd rfl rfl

/-! ## What survives -/

variable [TextForms]

/-- Objects that were read survive any number of trips, an authority record
    exactly if every letter of the currency it was submitted with has a single
    letter for its upper case; what is the same has the same signing payload.
    Timestamps are normal once they are normalised, and currencies on the same
    condition. -/
theorem signed_objects_survive_iff (hi : KeepsInts)
    (hb : ∀ b, TextForms.laxBool (.bool b) = some b) (hu : UpperLetters) :
    (∀ v r, AuthorityRecord.read v = some r →
      ((Codec.ofEq AuthorityRecord.read AuthorityRecord.toJson).Survives r ↔
        ∀ s, submittedCurrency v = some s → SingleUpper s)) ∧
    (∀ v r, Revocation.read v = some r →
      (Codec.ofEq Revocation.read Revocation.toJson).Survives r) ∧
    (∀ v r, ApprovalRecord.read v = some r →
      (Codec.ofEq ApprovalRecord.read ApprovalRecord.toJson).Survives r) ∧
    (∀ v a, Approval.read v = some a → (Codec.ofEq Approval.read Approval.toJson).Survives a) ∧
    (∀ v e, Event.read v = some e → Event.codec.Survives e) ∧
    (∀ e e' : Event, e'.Same e → e'.signingBytes = e.signingBytes) ∧
    (∀ v env, WireEnvelope.read v = some env → WireEnvelope.codec.Survives env) ∧
    (∀ env env' : WireEnvelope, env'.Same env →
      envelopeSigningPayload env' = envelopeSigningPayload env) ∧
    (∀ s t, validateRfc3339 s = .ok t → validateRfc3339 t = .ok t) ∧
    ∀ s t, iso4217 s = .ok t → (iso4217 t = .ok t ↔ SingleUpper s) := by
  refine ⟨fun v r h => AuthorityRecord.survives_iff hi hb hu h,
    fun v r h => Codec.ofEq_survives_iff.2 (stable_revocation h),
    fun v r h => Codec.ofEq_survives_iff.2 (stable_approvalRecord hi h),
    fun v a h => Codec.ofEq_survives_iff.2 (stable_approval hi h),
    fun v e h => Event.survives hi h, fun e e' h => h.signingBytes,
    fun v env h => WireEnvelope.survives h, fun env env' h => h.signingPayload,
    fun s t h => validateRfc3339_idem h, fun s t h => iso4217_again_iff hu h⟩

end

/-! ## A record that cannot be read again -/

section
open Sample
attribute [local instance] Sample.platform

attribute [local instance] Sample.textForms

theorem Sample.keepsInts : KeepsInts := fun _ => rfl

theorem Sample.upperLetters : UpperLetters where
  nonempty c := by
    simp only [TextForms.upper]
    split_ifs <;> simp
  letter c d ha hd := by
    simp only [TextForms.upper] at hd ⊢
    split_ifs at hd
    · cases hd
    · cases hd
      exact ⟨ha, if_neg ‹_›⟩

/-- A record with a cap in some currency, as it is submitted. -/
def Sample.submitted (currency : String) : Json :=
  { record with spendCap := ⟨currency, 500⟩ }.toJson

theorem Sample.submitted_read (currency : String) (h : currency = "EUR" ∨ currency = "EUß") :
    ∃ r, AuthorityRecord.read (submitted currency) = some r ∧
      .ok r.spendCap.currency = iso4217 currency := by
  have hread : (AuthorityRecord.read (submitted currency)).isSome := by
    rcases h with rfl | rfl <;> decide +kernel
  obtain ⟨r, hr⟩ := Option.isSome_iff_exists.1 hread
  obtain ⟨s, hs, hiso⟩ := AuthorityRecord.read_currency hr
  obtain rfl : currency = s := Option.some.inj hs
  exact ⟨r, hr, hiso.symm⟩

theorem signed_record_unreadable :
    ∃ r, AuthorityRecord.read (Sample.submitted "EUß") = some r ∧ r.spendCap.currency = "EUSS" ∧
      AuthorityRecord.read r.toJson = none := by
  obtain ⟨r, hr, hc⟩ := Sample.submitted_read "EUß" (.inr rfl)
  have hcurrency : r.spendCap.currency = "EUSS" := Except.ok.inj hc
  refine ⟨r, hr, hcurrency, ?_⟩
  cases hread : AuthorityRecord.read r.toJson with
  | none => rfl
  | some r' =>
    obtain ⟨s, hs, hiso⟩ := AuthorityRecord.read_currency hread
    obtain rfl : r.spendCap.currency = s := Option.some.inj hs
    rw [hcurrency] at hiso
    cases hiso

theorem signed_objects_survive_iff_euro :
    ∃ r, AuthorityRecord.read (Sample.submitted "EUR") = some r ∧
      (Codec.ofEq AuthorityRecord.read AuthorityRecord.toJson).Survives r := by
  obtain ⟨r, hr, -⟩ := Sample.submitted_read "EUR" (.inl rfl)
  refine ⟨r, hr, ?_⟩
  refine ((signed_objects_survive_iff Sample.keepsInts (fun _ => rfl) Sample.upperLetters).1 _ r
    hr).2 fun s hs => ?_
  cases hs
  intro c hc
  have hsingle : c ≠ 'ß' := by
    rintro rfl
    exact absurd hc (by decide)
  exact ⟨c, if_neg hsingle⟩

end

end Mandate
