/-
  The text of a signature.

  The decoder drops the bits of the last character that do not fill a byte, so
  a text is the encoding of what it decodes to exactly when those bits are
  zero (`exactText_iff`).  Two accepted envelopes that differ in the signature
  text alone have one fingerprint exactly when these bits agree
  (`signature_text_unique_iff`).
-/
import Mandate.Transport.Pipeline
import Mandate.Transport.SignedObjects

namespace Mandate

/-! ## The bits that are dropped -/

/-- The bits of the last character of a text that fill no byte. -/
def unusedBits : List ℕ → ℕ
  | _ :: _ :: _ :: _ :: rest => unusedBits rest
  | [_, _, c] => c % 4
  | [_, b] => b % 16
  | _ => 0

/-- The six-bit values of a text. -/
def sextets (value : String) : List ℕ := value.toList.map fun c => b64urlAlphabet.idxOf c

/-- The text is in the alphabet, and its last character has unused bits that
    are not zero. -/
def SpareBits (value : String) : Prop :=
  value.toList.all (· ∈ b64urlAlphabet) ∧ unusedBits (sextets value) ≠ 0

instance : DecidablePred SpareBits := fun _ => inferInstanceAs (Decidable (_ ∧ _))

theorem mod_of_byte {m n : ℕ} (h : UInt8.ofNat m = UInt8.ofNat n) : m % 256 = n % 256 := by
  rw [← UInt8.toNat_ofNat', ← UInt8.toNat_ofNat', h]

/-- The bytes of a run that starts with a full group. -/
theorem b64urlBytes_group {a b c d : ℕ} {rest : List ℕ} {raw : Bytes} :
    b64urlBytes (a :: b :: c :: d :: rest) = some raw ↔
      ∃ r, b64urlBytes rest = some r ∧
        UInt8.ofNat ((((a * 64 + b) * 64 + c) * 64 + d) / 65536) ::
          UInt8.ofNat ((((a * 64 + b) * 64 + c) * 64 + d) / 256) ::
          UInt8.ofNat (((a * 64 + b) * 64 + c) * 64 + d) :: r = raw := by
  rw [b64urlBytes, Option.map_eq_some_iff]

theorem length_b64urlBytes : ∀ {xs : List ℕ} {raw : Bytes}, b64urlBytes xs = some raw →
    xs.length % 4 ≠ 1 ∧ raw.length = xs.length / 4 * 3 + (xs.length % 4 - 1)
  | [], _, h => by
    cases h
    simp
  | [_], _, h => by cases h
  | [a, b], _, h => by
    cases h
    simp
  | [a, b, c], _, h => by
    cases h
    simp
  | a :: b :: c :: d :: rest, raw, h => by
    obtain ⟨r, hr, rfl⟩ := b64urlBytes_group.1 h
    have ih := length_b64urlBytes hr
    simp only [List.length_cons]
    omega

/-- Runs of one length are told apart by their bytes and their unused bits. -/
theorem sextets_inj : ∀ {xs ys : List ℕ} {raw : Bytes}, (∀ x ∈ xs, x < 64) → (∀ y ∈ ys, y < 64) →
    xs.length = ys.length → b64urlBytes xs = some raw → b64urlBytes ys = some raw →
    unusedBits xs = unusedBits ys → xs = ys
  | [], [], _, _, _, _, _, _, _ => rfl
  | [_], _, _, _, _, _, h, _, _ => by cases h
  | [a, b], [a', b'], raw, hx, hy, _, h, h', hu => by
    cases h
    simp only [b64urlBytes, Option.some.injEq, List.cons.injEq, and_true] at h'
    have hbyte := mod_of_byte h'
    simp only [List.forall_mem_cons] at hx hy
    simp only [unusedBits] at hu
    rw [show a = a' by omega, show b = b' by omega]
  | [a, b, c], [a', b', c'], raw, hx, hy, _, h, h', hu => by
    cases h
    simp only [b64urlBytes, Option.some.injEq, List.cons.injEq, and_true] at h'
    have hbyte := mod_of_byte h'.1
    have hbyte' := mod_of_byte h'.2
    simp only [List.forall_mem_cons] at hx hy
    simp only [unusedBits] at hu
    rw [show a = a' by omega, show b = b' by omega, show c = c' by omega]
  | a :: b :: c :: d :: xs, a' :: b' :: c' :: d' :: ys, raw, hx, hy, hl, h, h', hu => by
    obtain ⟨r, hr, rfl⟩ := b64urlBytes_group.1 h
    obtain ⟨r', hr', heq⟩ := b64urlBytes_group.1 h'
    simp only [List.cons.injEq] at heq
    obtain ⟨h₁, h₂, h₃, rfl⟩ := heq
    have hbyte := mod_of_byte h₁
    have hbyte' := mod_of_byte h₂
    have hbyte'' := mod_of_byte h₃
    simp only [List.forall_mem_cons] at hx hy
    simp only [List.length_cons, Nat.add_right_cancel_iff] at hl
    simp only [unusedBits] at hu
    have hrest : xs = ys := sextets_inj hx.2.2.2.2 hy.2.2.2.2 hl hr hr' hu
    rw [hrest, show a = a' by omega, show b = b' by omega, show c = c' by omega,
      show d = d' by omega]
  | [], _ :: _, _, _, _, hl, _, _, _ | _ :: _, [], _, _, _, hl, _, _, _
  | [_, _], [_], _, _, _, hl, _, _, _ | [_, _], _ :: _ :: _ :: _, _, _, _, hl, _, _, _
  | [_, _, _], [_], _, _, _, hl, _, _, _ | [_, _, _], [_, _], _, _, _, hl, _, _, _
  | [_, _, _], _ :: _ :: _ :: _ :: _, _, _, _, hl, _, _, _
  | _ :: _ :: _ :: _ :: _, [_], _, _, _, hl, _, _, _
  | _ :: _ :: _ :: _ :: _, [_, _], _, _, _, hl, _, _, _
  | _ :: _ :: _ :: _ :: _, [_, _, _], _, _, _, hl, _, _, _ => by
    simp at hl

/-- What is decoded and what is unused tell runs of six-bit values apart. -/
theorem b64urlBytes_inj {xs ys : List ℕ} {raw : Bytes} (hx : ∀ x ∈ xs, x < 64)
    (hy : ∀ y ∈ ys, y < 64) (h : b64urlBytes xs = some raw) (h' : b64urlBytes ys = some raw)
    (hu : unusedBits xs = unusedBits ys) : xs = ys := by
  have hl := length_b64urlBytes h
  have hl' := length_b64urlBytes h'
  have hlength : xs.length = ys.length := by omega
  exact sextets_inj hx hy hlength h h' hu

/-- An encoding has no bits to spare. -/
theorem unusedBits_b64urlChars : ∀ raw : Bytes,
    unusedBits ((b64urlChars raw).map fun c => b64urlAlphabet.idxOf c) = 0
  | a :: b :: c :: rest => unusedBits_b64urlChars rest
  | [a, b] => by
    have ha := a.toNat_lt
    have hb := b.toNat_lt
    simp only [b64urlChars, List.map_cons, List.map_nil, unusedBits]
    rw [idxOf_b64urlChar (by omega)]
    omega
  | [a] => by
    have ha := a.toNat_lt
    simp only [b64urlChars, List.map_cons, List.map_nil, unusedBits]
    rw [idxOf_b64urlChar (by omega)]
    omega
  | [] => rfl

/-! ## Texts and what they decode to -/

theorem sextets_lt {value : String} (h : ∀ c ∈ value.toList, c ∈ b64urlAlphabet) :
    ∀ x ∈ sextets value, x < 64 := by
  intro x hx
  obtain ⟨c, hc, rfl⟩ := List.mem_map.1 hx
  exact List.idxOf_lt_length_of_mem (h c hc)

theorem b64urlChar_idxOf {c : Char} (h : c ∈ b64urlAlphabet) :
    b64urlChar (b64urlAlphabet.idxOf c) = c := by
  have hi := List.idxOf_lt_length_of_mem h
  rw [b64urlChar, List.getD_eq_getElem?_getD, List.getElem?_eq_getElem hi, List.getElem_idxOf hi]
  rfl

theorem text_of_sextets {value : String} (h : ∀ c ∈ value.toList, c ∈ b64urlAlphabet) :
    (sextets value).map b64urlChar = value.toList := by
  rw [sextets, List.map_map]
  exact (List.map_congr_left fun c hc => b64urlChar_idxOf (h c hc)).trans (List.map_id _)

theorem sextets_b64urlEncode (raw : Bytes) :
    sextets (b64urlEncode raw) = (b64urlChars raw).map fun c => b64urlAlphabet.idxOf c := by
  rw [sextets, b64urlEncode, String.toList_ofList]

section
variable [Platform]

theorem b64urlDecode_ok {value : String} {raw : Bytes} :
    b64urlDecode value = .ok raw ↔ value.toList ≠ [] ∧
      (∀ c ∈ value.toList, c ∈ b64urlAlphabet) ∧ b64urlBytes (sextets value) = some raw := by
  simp only [b64urlDecode, sextets]
  split_ifs with h
  · simp only [false_iff]
    rintro ⟨hne, hall, -⟩
    exact h.elim hne fun hn => hn (List.all_eq_true.2 fun c hc => decide_eq_true (hall c hc))
  · rw [not_or, not_not] at h
    have hall : ∀ c ∈ value.toList, c ∈ b64urlAlphabet :=
      fun c hc => of_decide_eq_true (List.all_eq_true.1 h.2 c hc)
    cases b64urlBytes (value.toList.map fun c => b64urlAlphabet.idxOf c) with
    | none => simp
    | some raw' =>
      simp only [Except.ok.injEq, Option.some.injEq, ne_eq, h.1, not_false_eq_true,
        iff_true_intro hall, true_and]

/-- What is not decoded is a value error. -/
theorem b64urlDecode_error {value : String} {e : PyError} (h : b64urlDecode value = .error e) :
    ∃ msg, e = .valueError msg := by
  unfold b64urlDecode at h
  split_ifs at h with hbad
  · cases h
    exact ⟨_, rfl⟩
  · cases hb : b64urlBytes (value.toList.map fun c => b64urlAlphabet.idxOf c) with
    | none =>
      simp only [hb] at h
      cases h
      exact ⟨_, rfl⟩
    | some raw =>
      simp only [hb] at h
      cases h

/-- Texts that decode to the same bytes are told apart by their unused bits. -/
theorem text_eq_iff {value value' : String} {raw : Bytes} (h : b64urlDecode value = .ok raw)
    (h' : b64urlDecode value' = .ok raw) :
    value = value' ↔ unusedBits (sextets value) = unusedBits (sextets value') := by
  obtain ⟨-, hall, hb⟩ := b64urlDecode_ok.1 h
  obtain ⟨-, hall', hb'⟩ := b64urlDecode_ok.1 h'
  constructor
  · rintro rfl
    rfl
  · intro hu
    have hs := b64urlBytes_inj (sextets_lt hall) (sextets_lt hall') hb hb' hu
    rw [← String.toList_inj, ← text_of_sextets hall, ← text_of_sextets hall', hs]

/-- The text decodes to just the bytes that it is the encoding of. -/
def ExactText (value : String) : Prop :=
  (∀ raw, b64urlDecode value = .ok raw ↔ raw ≠ [] ∧ value = b64urlEncode raw) ∧
    ((∀ raw, b64urlDecode value ≠ .ok raw) → ∃ msg, b64urlDecode value = .error (.valueError msg))

omit [Platform] in
theorem b64urlBytes_eq_nil {xs : List ℕ} (h : b64urlBytes xs = some []) : xs = [] := by
  have hl := length_b64urlBytes h
  rw [List.length_nil] at hl
  exact List.length_eq_zero_iff.1 (by omega)

theorem b64urlDecode_ne_nil {value : String} {raw : Bytes} (h : b64urlDecode value = .ok raw) :
    raw ≠ [] := by
  rintro rfl
  obtain ⟨hne, -, hb⟩ := b64urlDecode_ok.1 h
  exact hne (List.map_eq_nil_iff.1 (b64urlBytes_eq_nil hb))

/-- A decoded text is an encoding exactly when it has no bits to spare. -/
theorem eq_b64urlEncode_iff {value : String} {raw : Bytes} (h : b64urlDecode value = .ok raw) :
    value = b64urlEncode raw ↔ unusedBits (sextets value) = 0 := by
  rw [text_eq_iff h (b64urlDecode_b64urlEncode (b64urlDecode_ne_nil h)), sextets_b64urlEncode,
    unusedBits_b64urlChars]

omit [Platform] in
theorem b64urlBytes_of_unusedBits : ∀ {xs : List ℕ}, unusedBits xs ≠ 0 →
    ∃ raw, b64urlBytes xs = some raw
  | [], h => absurd rfl h
  | [_], h => absurd rfl h
  | [_, _], _ => ⟨_, rfl⟩
  | [_, _, _], _ => ⟨_, rfl⟩
  | _ :: _ :: _ :: _ :: rest, h => by
    obtain ⟨raw, hraw⟩ := @b64urlBytes_of_unusedBits rest h
    exact ⟨_, b64urlBytes_group.2 ⟨raw, hraw, rfl⟩⟩

/-- A text is exact unless it has bits to spare. -/
theorem exactText_iff (value : String) : ExactText value ↔ ¬ SpareBits value := by
  constructor
  · rintro ⟨hexact, -⟩ ⟨halphabet, hu⟩
    have hall : ∀ c ∈ value.toList, c ∈ b64urlAlphabet :=
      fun c hc => of_decide_eq_true (List.all_eq_true.1 halphabet c hc)
    obtain ⟨raw, hraw⟩ := b64urlBytes_of_unusedBits hu
    have hne : value.toList ≠ [] := by
      intro hnil
      rw [sextets, hnil] at hu
      exact hu rfl
    have hd := b64urlDecode_ok.2 ⟨hne, hall, hraw⟩
    exact hu ((eq_b64urlEncode_iff hd).1 ((hexact raw).1 hd).2)
  · intro hspare
    constructor
    · intro raw
      constructor
      · intro hd
        have hall := (b64urlDecode_ok.1 hd).2.1
        refine ⟨b64urlDecode_ne_nil hd, (eq_b64urlEncode_iff hd).2 (by_contra fun hu => ?_)⟩
        exact hspare ⟨List.all_eq_true.2 fun c hc => decide_eq_true (hall c hc), hu⟩
      · rintro ⟨hne, rfl⟩
        exact b64urlDecode_b64urlEncode hne
    · intro hno
      cases hd : b64urlDecode value with
      | ok raw => exact absurd hd (hno raw)
      | error e =>
        obtain ⟨msg, rfl⟩ := b64urlDecode_error hd
        exact ⟨msg, rfl⟩

/-! ## Envelopes -/

/-- A key has one signature for each payload. -/
def OneSignature : Prop :=
  ∀ publicKey payload signature signature', Platform.ed25519Verify publicKey signature payload →
    Platform.ed25519Verify publicKey signature' payload → signature = signature'

omit [Platform] in
/-- The envelopes agree in every field but the signature; payloads are objects,
    whose members have no order. -/
def WireEnvelope.SameFields (env env' : WireEnvelope) : Prop :=
  Json.normalize (.obj env.unsignedFields) = Json.normalize (.obj env'.unsignedFields)

variable {env env' : WireEnvelope} {peer : GatewayIdentity}

omit [Platform] in
theorem SignatureBlock.eq_iff {s s' : SignatureBlock} (ha : s.algorithm = s'.algorithm)
    (hk : s.keyId = s'.keyId) : s = s' ↔ s.value = s'.value := by
  cases s
  cases s'
  simp_all

/-- Accepted envelopes with the same fields have one fingerprint exactly when
    the unused bits of their signature texts agree. -/
theorem fingerprint_eq_iff (hf : CollisionFree) (hone : OneSignature)
    (h : verifyEnvelope env peer = .ok ()) (h' : verifyEnvelope env' peer = .ok ())
    (hsame : env.SameFields env') :
    envelopeFingerprint env = envelopeFingerprint env' ↔
      unusedBits (sextets env.signature.value) = unusedBits (sextets env'.signature.value) := by
  have hauth := verifyEnvelope_ok.1 h
  have hauth' := verifyEnvelope_ok.1 h'
  obtain ⟨raw, hd, hv⟩ := hauth.signed
  obtain ⟨raw', hd', hv'⟩ := hauth'.signed
  have hpayload : envelopeSigningPayload env = envelopeSigningPayload env' :=
    Json.canonicalBytes_inj.2 hsame
  obtain rfl : raw = raw' := hone _ _ _ _ hv (hpayload ▸ hv')
  rw [← text_eq_iff hd hd', ← SignatureBlock.eq_iff (hauth.scheme.trans hauth'.scheme.symm)
    (hauth.keyId.trans hauth'.keyId.symm)]
  constructor
  · intro hfp
    have key := Json.member_inj env.nodup_toJson env'.nodup_toJson (hf.normalize_eq hfp)
    exact SignatureBlock.eq_of_normalize (Option.some.inj (key "signature"))
  · intro hsignature
    refine congrArg Platform.sha256Hex (Json.canonicalBytes_inj.2 ?_)
    have hall := normalize_signed env.signature env.nodup_toJson (hsignature ▸ env'.nodup_toJson) hsame
    rwa [WireEnvelope.toJson, WireEnvelope.toJson, ← hsignature]

/-- A text is exact unless it has bits to spare; and accepted envelopes with the
    same fields have one fingerprint exactly when their signature texts spare
    the same bits. -/
theorem signature_text_unique_iff :
    (∀ value, ExactText value ↔ ¬ SpareBits value) ∧
    (CollisionFree → OneSignature → ∀ (peer : GatewayIdentity) (env env' : WireEnvelope),
      verifyEnvelope env peer = .ok () → verifyEnvelope env' peer = .ok () → env.SameFields env' →
      (envelopeFingerprint env = envelopeFingerprint env' ↔
        unusedBits (sextets env.signature.value) = unusedBits (sextets env'.signature.value))) :=
  ⟨exactText_iff, fun hf hone _ _ _ h h' hsame => fingerprint_eq_iff hf hone h h' hsame⟩

end

section
open Sample
attribute [local instance] Sample.platform

/-- A peer whose signatures are one byte long. -/
def Sample.bytePeer : GatewayIdentity := ⟨ulid 'B', [1], none⟩

/-- A message of the peer with a signature text. -/
def Sample.signedWith (text : String) : WireEnvelope :=
  { schemaVersion, messageId := ulid 'M', idempotencyKey := ulid 'K', senderId := ulid 'B'
    recipientId := ulid 'G', kind := .proposal, payload := .empty, issuedAt := now
    signature := ⟨algorithm, ulid 'B', text⟩ }

/-- The message with terms in two orders. -/
def Sample.amountFirst : WireEnvelope := { signedWith "AQ" with payload := amountTerms }

def Sample.currencyFirst : WireEnvelope := { signedWith "AQ" with payload := currencyTerms }

theorem Sample.oneSignature : OneSignature := fun _ _ _ _ h h' =>
  (of_decide_eq_true h).trans (of_decide_eq_true h').symm

/-- The message keeps its fingerprint when its payload is reordered, and loses
    it when its signature is respelled. -/
theorem signature_text_unique_iff_respelled :
    ExactText "AQ" ∧ amountFirst ≠ currencyFirst ∧
      envelopeFingerprint amountFirst = envelopeFingerprint currencyFirst ∧
      envelopeFingerprint (signedWith "AQ") ≠ envelopeFingerprint (signedWith "AR") := by
  obtain ⟨hexact, hfingerprint⟩ := signature_text_unique_iff
  have hbits := hfingerprint collisionFree oneSignature bytePeer
  refine ⟨(hexact "AQ").2 (by decide +kernel), fun h => ?_, ?_, fun h => ?_⟩
  · have hkeys := congrArg (fun env => env.payload.entries.map Prod.fst) h
    exact absurd hkeys (by decide +kernel)
  · have ha : verifyEnvelope amountFirst bytePeer = .ok () := by decide +kernel
    have hc : verifyEnvelope currencyFirst bytePeer = .ok () := by decide +kernel
    exact (hbits _ _ ha hc rfl).2 rfl
  · have hgenuine : verifyEnvelope (signedWith "AQ") bytePeer = .ok () := by decide +kernel
    have haltered : verifyEnvelope (signedWith "AR") bytePeer = .ok () := by decide +kernel
    have hspare := (hbits _ _ hgenuine haltered rfl).1 h
    exact absurd hspare (by decide +kernel)

/-- A text is decoded that is no encoding, and a message is accepted with two
    fingerprints. -/
theorem signature_text_not_unique :
    (¬ ∀ value, ExactText value) ∧ CollisionFree ∧ OneSignature ∧
    ¬ ∀ (peer : GatewayIdentity) (env env' : WireEnvelope), verifyEnvelope env peer = .ok () →
      verifyEnvelope env' peer = .ok () → env.SameFields env' →
      envelopeFingerprint env = envelopeFingerprint env' := by
  refine ⟨fun h => (exactText_iff "AR").1 (h "AR") (by decide +kernel), collisionFree,
    oneSignature, fun h => ?_⟩
  have hgenuine : verifyEnvelope (signedWith "AQ") bytePeer = .ok () := by decide +kernel
  have haltered : verifyEnvelope (signedWith "AR") bytePeer = .ok () := by decide +kernel
  have hbits := (fingerprint_eq_iff collisionFree oneSignature hgenuine haltered rfl).1
    (h _ _ _ hgenuine haltered rfl)
  exact absurd hbits (by decide +kernel)

end

end Mandate
