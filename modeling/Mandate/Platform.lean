/-
  What the program takes from outside: the hash, the signature scheme, the
  lax integer reading of the validation library and the character database.

  A `Platform` gives these as plain functions; results hold for every
  platform, and those that need a property of one of them state it.
-/
import Mathlib.Data.Int.Notation
import Mandate.Lib.Json

abbrev Bytes := List UInt8

/-- The external functions the code calls. -/
class Platform where
  /-- lowercase hexadecimal SHA-256 -/
  sha256Hex : Bytes → String
  /-- the public key of a 32-byte seed -/
  ed25519PublicKey : Bytes → Bytes
  ed25519Sign : Bytes → Bytes → Bytes
  /-- `verify public signature payload`, `false` when it raises -/
  ed25519Verify : Bytes → Bytes → Bytes → Bool
  /-- the integer a JSON value is read as in an integer field -/
  laxInt : Json → Option ℤ
  /-- whether a non-ASCII character is printable -/
  isPrintable : Char → Bool
  /-- whether a non-ASCII character is a decimal digit -/
  isDecimal : Char → Bool

/-- `width` lowercase hexadecimal digits. -/
def hexDigits (width n : ℕ) : List Char := (Nat.toDigits 16 n).leftpad width '0'

/-- A concrete platform for the worked instances: the digest is the hexadecimal
    text of the bytes, and what a key signs carries the key. -/
@[reducible] def Mandate.Sample.platform : Platform where
  sha256Hex bytes := String.ofList (bytes.flatMap fun b => hexDigits 2 b.toNat)
  ed25519PublicKey seed := seed
  ed25519Sign seed _ := seed
  ed25519Verify publicKey signature _ := signature = publicKey
  laxInt
    | .int i => some i
    | _ => none
  isPrintable _ := true
  isDecimal _ := false

/-- The value of hexadecimal digits. -/
def hexValue (digits : List Char) : ℕ := digits.foldl (fun n c => n * 16 + Json.hexVal c) 0

theorem hexValue_hexDigits {n : ℕ} (h : n < 256) :
    hexValue (hexDigits 2 n) = n ∧ (hexDigits 2 n).length = 2 := by
  revert h n
  decide +kernel

theorem hexDigits_flatMap_inj : ∀ {bs cs : Bytes},
    bs.flatMap (fun b => hexDigits 2 b.toNat) = cs.flatMap (fun b => hexDigits 2 b.toNat) → bs = cs
  | [], [], _ => rfl
  | [], c :: cs, h | c :: cs, [], h => by
    have hl := congrArg List.length h
    simp only [List.flatMap_nil, List.flatMap_cons, List.length_nil, List.length_append,
      (hexValue_hexDigits c.toNat_lt).2] at hl
    omega
  | b :: bs, c :: cs, h => by
    obtain ⟨hb, hbl⟩ := hexValue_hexDigits b.toNat_lt
    obtain ⟨hc, hcl⟩ := hexValue_hexDigits c.toNat_lt
    obtain ⟨hd, ht⟩ := List.append_inj h (hbl.trans hcl.symm)
    rw [hexDigits_flatMap_inj ht, UInt8.toNat_inj.1 (hb.symm.trans ((congrArg hexValue hd).trans hc))]

variable [Platform]

/-- SHA-256 of the canonical bytes. -/
def canonicalSha256Hex (v : Json) : String := Platform.sha256Hex (Json.canonicalBytes v)

/-- The digest tells canonical forms apart. -/
def CollisionFree : Prop := ∀ v w : Json, canonicalSha256Hex v = canonicalSha256Hex w →
  Json.canonicalBytes v = Json.canonicalBytes w

theorem CollisionFree.normalize_eq (h : CollisionFree) {v w : Json}
    (hd : canonicalSha256Hex v = canonicalSha256Hex w) : Json.normalize v = Json.normalize w :=
  Json.canonicalBytes_inj.1 (h v w hd)

/-- SHA-256 of the UTF-8 bytes of a text. -/
def sha256Text (s : String) : String := Platform.sha256Hex s.toUTF8.toList

omit [Platform] in
theorem Mandate.Sample.collisionFree : @CollisionFree Mandate.Sample.platform :=
  fun _ _ h => hexDigits_flatMap_inj (String.ofList_inj.1 h)

/-! ## The quoted form of a string in messages -/

def reprChar (quote c : Char) : List Char :=
  if c = quote ∨ c = '\\' then ['\\', c]
  else if c = '\t' then ['\\', 't']
  else if c = '\n' then ['\\', 'n']
  else if c = '\r' then ['\\', 'r']
  else if 32 ≤ c.toNat ∧ c.toNat < 127 then [c]
  else if 127 < c.toNat ∧ Platform.isPrintable c then [c]
  else if c.toNat < 256 then '\\' :: 'x' :: hexDigits 2 c.toNat
  else if c.toNat < 65536 then '\\' :: 'u' :: hexDigits 4 c.toNat
  else '\\' :: 'U' :: hexDigits 8 c.toNat

/-- `repr` of a string: single quotes, unless only those occur in it. -/
def pyRepr (s : String) : String :=
  let quote := if '\'' ∈ s.toList ∧ '"' ∉ s.toList then '"' else '\''
  String.ofList (quote :: s.toList.flatMap (reprChar quote) ++ [quote])
