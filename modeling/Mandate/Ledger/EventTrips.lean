/-
  Events travel.

  An event that was read is read again from whatever carries it, with the
  members of its payload in some order: its hashes cover canonical forms, which
  do not depend on that order (`Event.survives`).
-/
import Mandate.Domain.Stability
import Mandate.Ledger.Anchoring

namespace Mandate

open Json

theorem stable_eventSignature : Stable EventSignature.read EventSignature.toJson := by
  intro v s h w hw
  obtain ⟨d, -, h⟩ := Option.bind_eq_some_iff.1 h
  obtain ⟨algorithm, h, k₁⟩ := stable_field stable_str h
  obtain ⟨keyId, h, k₂⟩ := stable_field stable_str h
  obtain ⟨value, h, k₃⟩ := stable_field stable_str h
  cases h
  obtain ⟨d', rfl, hd⟩ := carries_obj (by simp) hw
  refine Option.bind_eq_some_iff.2 ⟨d', readDict_entries d', ?_⟩
  exact k₁ hd rfl <| k₂ hd rfl <| k₃ hd rfl rfl

variable {e e' : Event}

theorem Event.Same.refl (e : Event) : e.Same e :=
  ⟨⟨rfl, rfl, rfl, rfl, rfl, rfl, rfl, rfl, rfl, rfl, rfl, rfl, rfl⟩, rfl⟩

/-- Events that are the same differ in the payload alone, which is the same as
    a JSON object. -/
theorem Event.Same.eq_withPayload (h : e.Same e') : e = { e' with payload := e.payload } := by
  obtain ⟨⟨_, _, _, _, _, _, _, _, _, _, _, _, _⟩, _⟩ := h
  cases e
  cases e'
  simp_all

theorem normalize_obj_congr {fs gs : List (String × Json)}
    (h : normalizeFields fs = normalizeFields gs) :
    Json.normalize (.obj fs) = Json.normalize (.obj gs) := by
  rw [Json.normalize, Json.normalize, h]

/-- The order of the payload's members does not show in the normal forms. -/
theorem Event.normalize_withPayload {p : List (String × Json)}
    (h : Json.normalize (.obj p) = Json.normalize (.obj e.payload)) :
    Json.normalize { e with payload := p }.toJson = Json.normalize e.toJson ∧
      Json.normalize { e with payload := p }.canonicalForm = Json.normalize e.canonicalForm :=
  ⟨normalize_obj_congr (by simp only [normalizeFields, h]),
    normalize_obj_congr (by simp only [normalizeFields, h])⟩

theorem Event.Same.normalize (h : e.Same e') :
    Json.normalize e.toJson = Json.normalize e'.toJson := by
  rw [h.eq_withPayload]
  exact (Event.normalize_withPayload h.payload).1

theorem Event.Same.signingBytes (h : e.Same e') : e.signingBytes = e'.signingBytes := by
  rw [h.eq_withPayload]
  exact canonicalBytes_inj.2 (Event.normalize_withPayload h.payload).2

theorem toOption_eq_some {ε α : Type} {x : Except ε α} {a : α} :
    x.toOption = some a ↔ x = .ok a := by
  cases x <;> simp [Except.toOption]

/-- How an event is written and read. -/
def Event.codec [Platform] : Codec Event where
  read := Event.read
  write := Event.toJson
  same := Event.Same
  refl := Event.Same.refl
  write_same := Event.Same.normalize

variable [Platform]

/-- The validators of an event do not look at the order of its payload. -/
theorem Event.Valid.withPayload {p : List (String × Json)} (hv : e.Valid)
    (h : Json.normalize (.obj p) = Json.normalize (.obj e.payload)) :
    { e with payload := p }.Valid where
  eventId := hv.eventId
  dealId := hv.dealId
  authorityRecordId := hv.authorityRecordId
  hashes := hv.hashes
  payloadHash := by
    have hbytes : canonicalBytes (.obj p) = canonicalBytes (.obj e.payload) :=
      canonicalBytes_inj.2 h
    rw [canonicalSha256Hex, hbytes]
    exact hv.payloadHash
  eventHash := by
    have hbytes : { e with payload := p }.signingBytes = e.signingBytes :=
      canonicalBytes_inj.2 (Event.normalize_withPayload h).2
    rw [hbytes]
    exact hv.eventHash

theorem Event.survives (hi : KeepsInts) {v : Json} (h : Event.read v = some e) :
    Event.codec.Survives e := by
  refine Codec.survives_iff.2 fun w hw => ?_
  obtain ⟨d, -, h⟩ := Option.bind_eq_some_iff.1 h
  obtain ⟨eventId, h, k₁⟩ := stable_field stable_str h
  obtain ⟨dealId, h, k₂⟩ := stable_field stable_str h
  obtain ⟨sequenceNumber, h, k₃⟩ := stable_field (stable_amount hi) h
  obtain ⟨eventType, h, k₄⟩ := stable_field stable_enum h
  obtain ⟨actorKind, h, k₅⟩ := stable_field stable_enum h
  obtain ⟨actorId, h, k₆⟩ := stable_field stable_str h
  obtain ⟨recordId, h, k₇⟩ := stable_field (stable_optStr stable_str) h
  obtain ⟨previousHash, h, k₈⟩ := stable_field stable_str h
  obtain ⟨payloadHash, h, k₉⟩ := stable_field stable_str h
  obtain ⟨eventHash, h, k₁₀⟩ := stable_field stable_str h
  obtain ⟨payload, -, h⟩ := Option.bind_eq_some_iff.1 h
  obtain ⟨occurredAt, h, k₁₂⟩ := stable_field stable_str h
  obtain ⟨recordedAt, h, k₁₃⟩ := stable_field stable_str h
  obtain ⟨signature, h, k₁₄⟩ := stable_field stable_eventSignature h
  obtain ⟨hvalid, rfl⟩ := Event.validate_ok.1 (toOption_eq_some.1 h)
  obtain ⟨d', rfl, hd⟩ := carries_obj (by simp) hw
  -- the payload arrives with its members in some order
  obtain ⟨x, hx, hc⟩ := hd "payload" _ rfl
  obtain ⟨payload', rfl, -⟩ := carries_obj payload.nodup hc
  have hread : required d' "payload" readDict = some payload' :=
    Option.bind_eq_some_iff.2 ⟨_, hx, readDict_entries payload'⟩
  have hvalid' := hvalid.withPayload hc.2
  refine ⟨{ eventId, dealId, sequenceNumber, eventType, actorKind, actorId
            authorityRecordId := recordId
            previousEventHash := previousHash
            payloadHash, eventHash
            payload := payload'.entries
            occurredAt, recordedAt, signature },
    Option.bind_eq_some_iff.2 ⟨d', readDict_entries d', ?_⟩, ?_⟩
  · refine k₁ hd rfl <| k₂ hd rfl <| k₃ hd rfl <| k₄ hd rfl <| k₅ hd rfl <| k₆ hd rfl <|
      k₇ hd rfl <| k₈ hd rfl <| k₉ hd rfl <| k₁₀ hd rfl <|
      Option.bind_eq_some_iff.2 ⟨payload', hread, ?_⟩
    exact k₁₂ hd rfl <| k₁₃ hd rfl <| k₁₄ hd rfl <|
      toOption_eq_some.2 (Event.validate_ok.2 ⟨hvalid', rfl⟩)
  · exact ⟨⟨rfl, rfl, rfl, rfl, rfl, rfl, rfl, rfl, rfl, rfl, hc.2, rfl, rfl⟩, rfl⟩

end Mandate
