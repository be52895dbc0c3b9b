/-
  Ed25519 signing over canonical payloads, and the verification of signed
  objects.  Keys and signatures are raw bytes; the scheme is the platform's.
-/
import Mandate.Domain.Approvals
import Mandate.Domain.Validation

namespace Mandate

section
variable [Platform]

/-! ## Base64url, unpadded -/

def b64urlAlphabet : List Char :=
  "ABCDEFGHIJKLMNOPQRSTUVWXYZabcdefghijklmnopqrstuvwxyz0123456789-_".toList

/-- The character of six bits. -/
def b64urlChar (n : ℕ) : Char := b64urlAlphabet.getD n 'A'

def b64urlChars : Bytes → List Char
  | a :: b :: c :: rest =>
    let n := (a.toNat * 256 + b.toNat) * 256 + c.toNat
    b64urlChar (n / 262144) :: b64urlChar (n / 4096 % 64) :: b64urlChar (n / 64 % 64) ::
      b64urlChar (n % 64) :: b64urlChars rest
  | [a, b] =>
    let n := (a.toNat * 256 + b.toNat) * 4
    [b64urlChar (n / 4096), b64urlChar (n / 64 % 64), b64urlChar (n % 64)]
  | [a] => [b64urlChar (a.toNat / 4), b64urlChar (a.toNat % 4 * 16)]
  | [] => []

def b64urlEncode (raw : Bytes) : String := String.ofList (b64urlChars raw)

/-- The bytes of a run of six-bit values, or `none` when one is left over.
    Trailing bits that do not fill a byte are dropped. -/
def b64urlBytes : List ℕ → Option Bytes
  | a :: b :: c :: d :: rest =>
    let n := ((a * 64 + b) * 64 + c) * 64 + d
    (b64urlBytes rest).map fun r =>
      UInt8.ofNat (n / 65536) :: UInt8.ofNat (n / 256) :: UInt8.ofNat n :: r
  | [a, b, c] =>
    let n := (a * 64 + b) * 64 + c
    some [UInt8.ofNat (n / 1024), UInt8.ofNat (n / 4)]
  | [a, b] => some [UInt8.ofNat ((a * 64 + b) / 16)]
  | [_] => none
  | [] => some []

def b64urlDecode (value : String) : Except PyError Bytes :=
  if value.toList = [] ∨ ¬ value.toList.all (· ∈ b64urlAlphabet) then
    .error (.valueError s!"not a valid base64url string: {pyRepr value}")
  else match b64urlBytes (value.toList.map fun c => b64urlAlphabet.idxOf c) with
    | some raw => .ok raw
    | none => .error (.valueError (s!"Invalid base64-encoded string: number of data characters " ++
        s!"({value.toList.length}) cannot be 1 more than a multiple of 4"))

section
omit [Platform]

theorem idxOf_b64urlChar {n : ℕ} (h : n < 64) : b64urlAlphabet.idxOf (b64urlChar n) = n := by
  revert h n
  decide +kernel

theorem b64urlChar_mem {n : ℕ} (h : n < 64) : b64urlChar n ∈ b64urlAlphabet := by
  revert h n
  decide +kernel

theorem byte_of_mod {n : ℕ} {a : UInt8} (h : n % 256 = a.toNat) : UInt8.ofNat n = a :=
  UInt8.toNat_inj.1 (UInt8.toNat_ofNat'.trans h)

theorem b64urlBytes_b64urlChars : ∀ raw : Bytes,
    b64urlBytes ((b64urlChars raw).map fun c => b64urlAlphabet.idxOf c) = some raw
  | a :: b :: c :: rest => by
    have ha := a.toNat_lt
    have hb := b.toNat_lt
    have hc := c.toNat_lt
    simp only [b64urlChars, List.map_cons, b64urlBytes, b64urlBytes_b64urlChars rest,
      Option.map_some]
    rw [idxOf_b64urlChar (by omega), idxOf_b64urlChar (by omega), idxOf_b64urlChar (by omega),
      idxOf_b64urlChar (by omega), byte_of_mod (a := a) (by omega),
      byte_of_mod (a := b) (by omega), byte_of_mod (a := c) (by omega)]
  | [a, b] => by
    have ha := a.toNat_lt
    have hb := b.toNat_lt
    simp only [b64urlChars, List.map_cons, List.map_nil, b64urlBytes]
    rw [idxOf_b64urlChar (by omega), idxOf_b64urlChar (by omega), idxOf_b64urlChar (by omega),
      byte_of_mod (a := a) (by omega), byte_of_mod (a := b) (by omega)]
  | [a] => by
    have ha := a.toNat_lt
    simp only [b64urlChars, List.map_cons, List.map_nil, b64urlBytes]
    rw [idxOf_b64urlChar (by omega), idxOf_b64urlChar (by omega),
      byte_of_mod (a := a) (by omega)]
  | [] => rfl

theorem mem_b64urlChars : ∀ (raw : Bytes), ∀ c ∈ b64urlChars raw, c ∈ b64urlAlphabet
  | a :: b :: c :: rest, d, hd => by
    have ha := a.toNat_lt
    have hb := b.toNat_lt
    have hc := c.toNat_lt
    simp only [b64urlChars, List.mem_cons] at hd
    rcases hd with rfl | rfl | rfl | rfl | hd
    · exact b64urlChar_mem (by omega)
    · exact b64urlChar_mem (by omega)
    · exact b64urlChar_mem (by omega)
    · exact b64urlChar_mem (by omega)
    · exact mem_b64urlChars rest d hd
  | [a, b], d, hd => by
    have ha := a.toNat_lt
    have hb := b.toNat_lt
    simp only [b64urlChars, List.mem_cons, List.not_mem_nil, or_false] at hd
    rcases hd with rfl | rfl | rfl
    · exact b64urlChar_mem (by omega)
    · exact b64urlChar_mem (by omega)
    · exact b64urlChar_mem (by omega)
  | [a], d, hd => by
    have ha := a.toNat_lt
    simp only [b64urlChars, List.mem_cons, List.not_mem_nil, or_false] at hd
    rcases hd with rfl | rfl
    · exact b64urlChar_mem (by omega)
    · exact b64urlChar_mem (by omega)
  | [], _, hd => by cases hd

theorem b64urlChars_ne_nil {raw : Bytes} (h : raw ≠ []) : b64urlChars raw ≠ [] := by
  match raw with
  | [] => exact absurd rfl h
  | [a] => simp [b64urlChars]
  | [a, b] => simp [b64urlChars]
  | a :: b :: c :: rest => simp [b64urlChars]

/-- What is encoded can be decoded; the empty text cannot. -/
theorem b64urlDecode_b64urlEncode [Platform] {raw : Bytes} (h : raw ≠ []) :
    b64urlDecode (b64urlEncode raw) = .ok raw := by
  have hall : (b64urlChars raw).all (· ∈ b64urlAlphabet) :=
    List.all_eq_true.2 fun c hc => decide_eq_true (mem_b64urlChars raw c hc)
  rw [b64urlDecode, b64urlEncode, String.toList_ofList, if_neg, b64urlBytes_b64urlChars]
  rintro (hnil | hbad)
  · exact b64urlChars_ne_nil h hnil
  · exact hbad hall

end

/-! ## Signing -/

def algorithm : String := "Ed25519"

def sign (privateKey payload : Bytes) : String :=
  b64urlEncode (Platform.ed25519Sign privateKey payload)

/-- The gateway's signing key. -/
structure GatewaySigner where
  keyId : String
  privateKey : Bytes
  publicKey : Bytes

def GatewaySigner.signBytes (signer : GatewaySigner) (payload : Bytes) : String :=
  sign signer.privateKey payload

/-- Build a signer from a 32-byte seed. -/
def gatewaySigner (keyId : String) (seed : Bytes) : Except PyError GatewaySigner :=
  if seed.length = 32 then .ok ⟨keyId, seed, Platform.ed25519PublicKey seed⟩
  else .error (.valueError s!"Ed25519 seed must be 32 bytes, got {seed.length}")

def recordSigningPayload (r : AuthorityRecord) : Bytes := Json.canonicalBytes (.obj r.unsignedFields)

def revocationSigningPayload (r : Revocation) : Bytes := Json.canonicalBytes (.obj r.unsignedFields)

def approvalSigningPayload (r : ApprovalRecord) : Bytes := Json.canonicalBytes (.obj r.unsignedFields)

/-- Mint and sign a one-time approval override. -/
def makeApprovalRecord (approvalRecordId dealId requestId parentAuthorityRecordId action : String)
    (amountMinor : Option ℕ) (currency proposalDigest : String) (issuedAt : Timestamp)
    (signer : GatewaySigner) : ApprovalRecord :=
  let provisional : ApprovalRecord :=
    { schemaVersion := "0.1", approvalRecordId, dealId, requestId, parentAuthorityRecordId, action,
      amountMinor, currency, proposalDigest, issuedAt,
      signature := ⟨algorithm, signer.keyId, ""⟩ }
  { provisional with
    signature := ⟨algorithm, signer.keyId,
      signer.signBytes (approvalSigningPayload provisional)⟩ }

/-! ## Verification -/

/-- The verdict of one signature check; `reason` is `ok` when valid. -/
structure VerifyResult where
  valid : Bool
  reason : String
deriving DecidableEq

/-- `_check`. -/
def checkSignature (payload : Bytes) (sig : SignatureBlock) (publicKey : Bytes)
    (expectedKeyId : Option String) : VerifyResult :=
  if sig.algorithm ≠ algorithm then ⟨false, "unsupported_algorithm"⟩
  else if expectedKeyId.isSome ∧ some sig.keyId ≠ expectedKeyId then ⟨false, "key_id_mismatch"⟩
  else match b64urlDecode sig.value with
    | .error _ => ⟨false, "signature_malformed"⟩
    | .ok signature =>
      if Platform.ed25519Verify publicKey signature payload then ⟨true, "ok"⟩
      else ⟨false, "signature_invalid"⟩

def verifyRecord (record : AuthorityRecord) (publicKey : Bytes) (expectedKeyId : Option String) :
    VerifyResult :=
  checkSignature (recordSigningPayload record) record.signature publicKey expectedKeyId

def verifyRevocation (revocation : Revocation) (publicKey : Bytes)
    (expectedKeyId : Option String) : VerifyResult :=
  checkSignature (revocationSigningPayload revocation) revocation.signature publicKey expectedKeyId

def verifyApproval (record : ApprovalRecord) (publicKey : Bytes) (expectedKeyId : Option String) :
    VerifyResult :=
  checkSignature (approvalSigningPayload record) record.signature publicKey expectedKeyId

end

/-! ## A signed mandate -/

namespace Sample

/-- An identifier of 26 characters that ends in `c`. -/
def ulid (c : Char) : String := String.ofList (List.replicate 25 '0' ++ [c])

def ids : ℕ → String := fun n => ulid (Nat.digitChar n)

def signer : GatewaySigner := ⟨"chain-key", [1, 2, 3], [1, 2, 3]⟩

def start : Timestamp := ⟨"2026-01-01T00:00:00Z", 63902822400000000, by decide⟩

def now : Timestamp := ⟨"2026-01-02T00:00:00Z", 63902908800000000, by decide⟩

def stop : Timestamp := ⟨"2026-12-31T00:00:00Z", 63934272000000000, by decide⟩

def dealId : String := ulid 'D'

/-- A mandate that allows every action up to 1000.00 EUR, unsigned. -/
def draftRecord : AuthorityRecord :=
  { schemaVersion := "0.1"
    recordId := ulid 'R'
    principalId := ulid 'P'
    agentId := ulid 'A'
    counterpartyId := none
    purpose := "repairs"
    allowedActions := StrEnum.all
    prohibitedActions := []
    spendCap := ⟨"EUR", 100000⟩
    maxNegotiationRounds := 1
    acceptanceWindowHours := 72
    disclosureFields := []
    requiresHumanApprovalFor := []
    issuedAt := start
    notBefore := start
    expiresAt := stop
    parentRecordId := none
    status := .active
    nonce := "nonce"
    signature := ⟨"", "", ""⟩ }

/-- A record signed by the gateway key. -/
def sign (r : AuthorityRecord) : AuthorityRecord :=
  { r with signature := ⟨algorithm, signer.keyId,
      @GatewaySigner.signBytes platform signer (recordSigningPayload r)⟩ }

def record : AuthorityRecord := sign draftRecord

end Sample

end Mandate
