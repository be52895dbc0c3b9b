/-
  Decimal floating point: the `Decimal` type of the source language.

  A finite decimal is a sign, a coefficient and an exponent.  Reading is exact;
  arithmetic rounds half-even to the context's precision.  A product by a whole
  number is exact exactly when the coefficient has few enough significant
  digits (`finalize_exact_iff`).
-/
import Mathlib.Data.Nat.Log
import Mathlib.Data.Rat.Floor
import Mathlib.Algebra.Order.Field.Power

namespace PyDecimal

/-- A decimal; payloads of NaNs are left out. -/
inductive Decimal where
  | finite (negative : Bool) (coefficient : ℕ) (exponent : ℤ)
  | infinity (negative : Bool)
  | quietNaN
  | signalingNaN
deriving DecidableEq

/-- What a context traps. -/
inductive Signal where
  | invalidOperation
  | overflow
deriving DecidableEq

/-! ## Reading -/

/-- What reading needs of the character database outside ASCII. -/
class CharForms where
  isSpace : Char → Bool
  decimal : Char → Option ℕ

/-- The database of ASCII text. -/
@[reducible] def CharForms.ascii : CharForms := ⟨fun _ => false, fun _ => none⟩

/-- Whether `str.strip` removes the character. -/
def isSpace [CharForms] (c : Char) : Bool :=
  if c.toNat < 128 then (9 ≤ c.toNat && c.toNat ≤ 13) || (28 ≤ c.toNat && c.toNat ≤ 32)
  else CharForms.isSpace c

/-- `str.strip`. -/
def strip [CharForms] (cs : List Char) : List Char :=
  ((cs.dropWhile isSpace).reverse.dropWhile isSpace).reverse

/-- A digit of any alphabet as an ASCII digit; `none` for what cannot occur in a
    numeric string. -/
def asciiForm [CharForms] (c : Char) : Option Char :=
  if c.toNat < 128 then some c
  else if CharForms.isSpace c then some ' '
  else (CharForms.decimal c).map fun d => Char.ofNat (48 + d)

def digitsValue (cs : List Char) : ℕ := Nat.ofDigitChars 10 cs 0

/-- A sign and what follows it. -/
def readSign : List Char → Bool × List Char
  | '-' :: cs => (true, cs)
  | '+' :: cs => (false, cs)
  | cs => (false, cs)

/-- The digits with their number of fractional digits. -/
def readMantissa (cs : List Char) : Option (ℕ × ℕ) :=
  let whole := cs.takeWhile Char.isDigit
  match cs.dropWhile Char.isDigit with
  | [] => if whole = [] then none else some (digitsValue whole, 0)
  | '.' :: fraction =>
    if fraction.all Char.isDigit && (whole ++ fraction ≠ []) then
      some (digitsValue (whole ++ fraction), fraction.length)
    else none
  | _ => none

/-- The exponent part; it may be absent. -/
def readExponent : List Char → Option ℤ
  | [] => some 0
  | _ :: cs =>
    let (negative, digits) := readSign cs
    if digits ≠ [] && digits.all Char.isDigit then
      some (if negative then -(digitsValue digits : ℤ) else digitsValue digits)
    else none

def maxEmax : ℤ := 999999999999999999

def minEtiny : ℤ := -1999999999999999997

/-- The number of decimal digits of a coefficient. -/
def numDigits (n : ℕ) : ℕ := Nat.log 10 n + 1

/-- A finite number whose exponent can be represented. -/
def representable (negative : Bool) (coefficient : ℕ) (exponent : ℤ) : Option Decimal :=
  if minEtiny ≤ exponent ∧ exponent + numDigits coefficient - 1 ≤ maxEmax then
    some (.finite negative coefficient exponent)
  else none

def isExponentMark (c : Char) : Bool := c = 'e' || c = 'E'

/-- A numeric string in ASCII, without white space and underscores. -/
def readAscii (cs : List Char) : Option Decimal :=
  let (negative, body) := readSign cs
  let lower := body.map Char.toLower
  if lower = "inf".toList ∨ lower = "infinity".toList then some (.infinity negative)
  else if lower.take 3 = "nan".toList ∧ (lower.drop 3).all Char.isDigit then some .quietNaN
  else if lower.take 4 = "snan".toList ∧ (lower.drop 4).all Char.isDigit then some .signalingNaN
  else do
    let (coefficient, places) ← readMantissa (body.takeWhile fun c => !isExponentMark c)
    let exponent ← readExponent (body.dropWhile fun c => !isExponentMark c)
    representable negative coefficient (exponent - places)

/-- `Decimal(text)`; `none` is the trapped `InvalidOperation`. -/
def ofText [CharForms] (cs : List Char) : Option Decimal := do
  readAscii (← ((strip cs).filter (· ≠ '_')).mapM asciiForm)

/-! ## Arithmetic -/

/-- `a / b` to the nearest whole number, ties to the even one. -/
def roundHalfEven (a b : ℕ) : ℕ :=
  if b < 2 * (a % b) ∨ (b = 2 * (a % b) ∧ a / b % 2 = 1) then a / b + 1 else a / b

/-- The value of a finite decimal. -/
def value (negative : Bool) (coefficient : ℕ) (exponent : ℤ) : ℚ :=
  (if negative then -1 else 1) * coefficient * (10 : ℚ) ^ exponent

namespace Decimal

/-- `to_integral_value`. -/
def toIntegralValue : Decimal → Except Signal Decimal
  | finite negative c e => .ok (if 0 ≤ e then finite negative c e
    else finite negative (roundHalfEven c (10 ^ (-e).toNat)) 0)
  | infinity negative => .ok (infinity negative)
  | quietNaN => .ok quietNaN
  | signalingNaN => .error .invalidOperation

/-- `==` of decimals that do not signal. -/
def eq : Decimal → Decimal → Bool
  | finite s c e, finite s' c' e' => value s c e = value s' c' e'
  | infinity s, infinity s' => s = s'
  | _, _ => false

/-- `< 0` of a number. -/
def isNegative : Decimal → Bool
  | finite s c e => value s c e < 0
  | infinity s => s
  | quietNaN | signalingNaN => false

end Decimal

/-- The precision and exponent range of the default context. -/
def precision : ℕ := 28

def emax : ℤ := 999999

def etiny : ℤ := -1000026

/-- How many digits a result loses in the context. -/
def excess (coefficient : ℕ) (exponent : ℤ) : ℕ :=
  max (numDigits coefficient - precision) (etiny - exponent).toNat

/-- A result rounded in the default context. -/
def finalize (negative : Bool) (coefficient : ℕ) (exponent : ℤ) : Except Signal Decimal :=
  let drop := excess coefficient exponent
  let c := roundHalfEven coefficient (10 ^ drop)
  if c ≠ 0 ∧ emax < exponent + drop + numDigits c - 1 then .error .overflow
  else .ok (.finite negative c (exponent + drop))

/-- The product with a positive whole number. -/
def Decimal.times (k : ℕ) : Decimal → Except Signal Decimal
  | finite negative c e => finalize negative (c * k) e
  | infinity negative => .ok (infinity negative)
  | quietNaN => .ok quietNaN
  | signalingNaN => .error .invalidOperation

/-- `int` of a finite decimal, cut towards zero. -/
def truncated (negative : Bool) (coefficient : ℕ) (exponent : ℤ) : ℤ :=
  let n : ℕ := if 0 ≤ exponent then coefficient * 10 ^ exponent.toNat
    else coefficient / 10 ^ (-exponent).toNat
  if negative then -n else n

/-! ## Rounding -/

theorem roundHalfEven_of_dvd {a b : ℕ} (h : b ∣ a) (hb : 0 < b) : roundHalfEven a b = a / b := by
  have hmod := Nat.mod_eq_zero_of_dvd h
  rw [roundHalfEven, if_neg]
  omega

/-- Rounding keeps the value exactly when there is nothing to round. -/
theorem roundHalfEven_mul_eq {a b : ℕ} (hb : 0 < b) : roundHalfEven a b * b = a ↔ b ∣ a := by
  constructor
  · intro h
    exact ⟨_, by rw [Nat.mul_comm]; exact h.symm⟩
  · intro h
    rw [roundHalfEven_of_dvd h hb]
    exact Nat.div_mul_cancel h

theorem lt_pow_numDigits (n : ℕ) : n < 10 ^ numDigits n :=
  Nat.lt_pow_succ_log_self (by decide) n

theorem pow_le_of_numDigits {n : ℕ} (h : n ≠ 0) : 10 ^ (numDigits n - 1) ≤ n :=
  Nat.pow_log_le_self 10 h

/-- The coefficient is within the precision up to trailing zeros. -/
def Significant (n : ℕ) : Prop := ∃ m k, n = m * 10 ^ k ∧ m < 10 ^ precision

theorem significant_mul_ten {n : ℕ} : Significant (n * 10) ↔ Significant n := by
  constructor
  · rintro ⟨m, k, h, hm⟩
    cases k with
    | zero => exact ⟨n, 0, by simp, by omega⟩
    | succ k =>
      refine ⟨m, k, ?_, hm⟩
      rw [pow_succ, ← Nat.mul_assoc] at h
      exact Nat.eq_of_mul_eq_mul_right (by decide) h
  · rintro ⟨m, k, rfl, hm⟩
    exact ⟨m, k + 1, by rw [pow_succ, Nat.mul_assoc], hm⟩

theorem significant_mul_pow {n : ℕ} (k : ℕ) : Significant (n * 10 ^ k) ↔ Significant n := by
  induction k with
  | zero => simp
  | succ k ih => rw [pow_succ, ← Nat.mul_assoc, significant_mul_ten, ih]

/-- A coefficient keeps its value in the precision exactly when it is
    significant. -/
theorem dvd_iff_significant {n : ℕ} (hn : n ≠ 0) :
    10 ^ (numDigits n - precision) ∣ n ↔ Significant n := by
  constructor
  · rintro ⟨m, hm⟩
    refine ⟨m, numDigits n - precision, by rw [Nat.mul_comm]; exact hm, ?_⟩
    have hlt := lt_pow_numDigits n
    by_contra hge
    have hle : 10 ^ (numDigits n - precision + precision) ≤ n := by
      rw [pow_add]
      conv_rhs => rw [hm]
      exact Nat.mul_le_mul_left _ (not_lt.1 hge)
    have hpow : 10 ^ numDigits n ≤ 10 ^ (numDigits n - precision + precision) :=
      Nat.pow_le_pow_right (by decide) (by omega)
    omega
  · rintro ⟨m, k, hm, hlt⟩
    by_cases hk : numDigits n - precision ≤ k
    · have hdvd : 10 ^ k ∣ n := ⟨m, by rw [hm, Nat.mul_comm]⟩
      exact (pow_dvd_pow 10 hk).trans hdvd
    · have hle := pow_le_of_numDigits hn
      have hpow : 10 ^ (precision + k) ≤ 10 ^ (numDigits n - 1) :=
        Nat.pow_le_pow_right (by decide) (by omega)
      have hn : n < 10 ^ (precision + k) := by
        rw [hm, pow_add]
        exact Nat.mul_lt_mul_of_pos_right hlt (by positivity)
      omega

/-! ## Whole values -/

/-- A coefficient with a natural value, in natural numbers. -/
theorem value_eq_natCast {c P : ℕ} {e : ℤ} (h : (c : ℚ) * (10 : ℚ) ^ e = P) :
    (∃ a : ℕ, e = a ∧ P = c * 10 ^ a) ∨ ∃ b : ℕ, e = -(b : ℤ) ∧ 0 < b ∧ c = P * 10 ^ b := by
  rcases lt_or_ge e 0 with he | he
  · refine .inr ⟨(-e).toNat, by omega, by omega, ?_⟩
    have hexp : e = -(((-e).toNat : ℕ) : ℤ) := by omega
    rw [hexp, zpow_neg, zpow_natCast] at h
    have hpos : (10 : ℚ) ^ (-e).toNat ≠ 0 := by positivity
    have hc : (c : ℚ) = P * 10 ^ (-e).toNat := by
      rw [← h]
      field_simp
    exact_mod_cast hc
  · refine .inl ⟨e.toNat, by omega, ?_⟩
    have hexp : e = ((e.toNat : ℕ) : ℤ) := by omega
    rw [hexp, zpow_natCast] at h
    exact_mod_cast h.symm

/-- `int` of a whole value is the value. -/
theorem truncated_of_value {c P : ℕ} {e : ℤ} (h : (c : ℚ) * (10 : ℚ) ^ e = P) :
    truncated false c e = P := by
  rcases value_eq_natCast h with ⟨a, rfl, rfl⟩ | ⟨b, rfl, hb, rfl⟩
  · simp [truncated]
  · have hnot : ¬ (0 : ℤ) ≤ -(b : ℤ) := by omega
    rw [truncated, if_neg hnot]
    simp

theorem finite_lt {c P : ℕ} {e : ℤ} (h : (c : ℚ) * (10 : ℚ) ^ e = P) :
    (P : ℚ) < (10 : ℚ) ^ (e + numDigits c) := by
  have hlt : (c : ℚ) < (10 : ℚ) ^ numDigits c := by exact_mod_cast lt_pow_numDigits c
  rw [← h, add_comm, zpow_add₀ (by norm_num), zpow_natCast]
  exact mul_lt_mul_of_pos_right hlt (by positivity)

theorem le_finite {c P : ℕ} {e : ℤ} (hc : c ≠ 0) (h : (c : ℚ) * (10 : ℚ) ^ e = P) :
    (10 : ℚ) ^ (e + numDigits c - 1) ≤ P := by
  have hle : (10 : ℚ) ^ (numDigits c - 1) ≤ c := by exact_mod_cast pow_le_of_numDigits hc
  have hexp : e + numDigits c - 1 = ((numDigits c - 1 : ℕ) : ℤ) + e := by
    have : 1 ≤ numDigits c := Nat.succ_pos _
    omega
  rw [← h, hexp, zpow_add₀ (by norm_num), zpow_natCast]
  exact mul_le_mul_of_nonneg_right hle (by positivity)

/-- A whole value does not get near the least exponent. -/
theorem excess_of_value {c P : ℕ} {e : ℤ} (hc : c ≠ 0) (h : (c : ℚ) * (10 : ℚ) ^ e = P) :
    excess c e = numDigits c - precision := by
  have hP : P ≠ 0 := by
    rintro rfl
    rw [Nat.cast_zero, mul_eq_zero] at h
    rcases h with h | h
    · exact hc (by exact_mod_cast h)
    · exact absurd h (zpow_ne_zero e (by norm_num))
  have hone : (10 : ℚ) ^ (0 : ℤ) ≤ P := by
    rw [zpow_zero]
    exact_mod_cast Nat.one_le_iff_ne_zero.2 hP
  have hexp := (zpow_lt_zpow_iff_right₀ (by norm_num)).1 (hone.trans_lt (finite_lt h))
  simp only [excess, etiny, precision]
  omega

theorem roundHalfEven_zero (b : ℕ) : roundHalfEven 0 b = 0 := by
  simp only [roundHalfEven, Nat.zero_mod, Nat.zero_div]
  rw [if_neg (by omega)]

theorem finalize_zero (s : Bool) (e : ℤ) :
    finalize s 0 e = .ok (.finite s 0 (e + excess 0 e)) := by
  simp only [finalize, roundHalfEven_zero, ne_eq, not_true_eq_false, false_and, ↓reduceIte]

theorem truncated_zero (s : Bool) (e : ℤ) : truncated s 0 e = 0 := by
  simp [truncated]

/-- A finite result is finite. -/
theorem finalize_finite {s : Bool} {c : ℕ} {e : ℤ} {d : Decimal} (h : finalize s c e = .ok d) :
    ∃ c' e', d = .finite s c' e' := by
  rw [finalize] at h
  split_ifs at h
  exact ⟨_, _, (Except.ok.inj h).symm⟩

theorem shift_value {c c' d : ℕ} (e : ℤ) (h : c' * 10 ^ d = c) :
    (c' : ℚ) * (10 : ℚ) ^ (e + d) = c * (10 : ℚ) ^ e := by
  rw [← h, zpow_add₀ (by norm_num), zpow_natCast]
  push_cast
  ring

/-- A cut result that is the value has lost no digit. -/
theorem dvd_of_truncated {c P d : ℕ} {e : ℤ} (h : (c : ℚ) * (10 : ℚ) ^ e = P)
    (ht : truncated false (roundHalfEven c (10 ^ d)) (e + d) = P) : 10 ^ d ∣ c := by
  have hpos : 0 < 10 ^ d := by positivity
  rcases lt_or_ge (e + d) 0 with he | he
  · rcases value_eq_natCast h with ⟨a, rfl, -⟩ | ⟨b, rfl, -, rfl⟩
    · omega
    · have hle : d ≤ b := by omega
      exact (pow_dvd_pow 10 hle).trans (Dvd.intro_left P rfl)
  · simp only [truncated, if_pos he, Bool.false_eq_true, ↓reduceIte] at ht
    have hnat : roundHalfEven c (10 ^ d) * 10 ^ (e + d).toNat = P := by exact_mod_cast ht
    have hexp : (e + d) = (((e + d).toNat : ℕ) : ℤ) := by omega
    have hvalue : (roundHalfEven c (10 ^ d) : ℚ) * (10 : ℚ) ^ (e + d) = c * (10 : ℚ) ^ e := by
      rw [h, ← hnat, hexp, zpow_natCast]
      push_cast
      rw [Int.toNat_natCast]
    have hten : (10 : ℚ) ^ e ≠ 0 := zpow_ne_zero e (by norm_num)
    rw [zpow_add₀ (by norm_num), zpow_natCast, ← mul_assoc, mul_right_comm] at hvalue
    have hc : (roundHalfEven c (10 ^ d) : ℚ) * 10 ^ d = c := mul_right_cancel₀ hten hvalue
    exact (roundHalfEven_mul_eq hpos).1 (by exact_mod_cast hc)

/-- A whole value is kept by the context exactly when its coefficient is
    significant and the value is in range. -/
theorem finalize_exact_iff {c P : ℕ} {e : ℤ} (h : (c : ℚ) * (10 : ℚ) ^ e = P) :
    (∃ c' e', finalize false c e = .ok (.finite false c' e') ∧ truncated false c' e' = P) ↔
      Significant c ∧ P < 10 ^ (emax + 1).toNat := by
  by_cases hc : c = 0
  · subst hc
    have hP : P = 0 := by
      rw [Nat.cast_zero, zero_mul] at h
      exact_mod_cast h.symm
    subst hP
    exact ⟨fun _ => ⟨⟨0, 0, rfl, by positivity⟩, by positivity⟩,
      fun _ => ⟨0, e + excess 0 e, finalize_zero false e, truncated_zero false _⟩⟩
  · have hpos : 0 < 10 ^ (numDigits c - precision) := by positivity
    have hkept : 10 ^ (numDigits c - precision) ∣ c →
        roundHalfEven c (10 ^ (numDigits c - precision)) ≠ 0 ∧
        (roundHalfEven c (10 ^ (numDigits c - precision)) : ℚ) *
          (10 : ℚ) ^ (e + (numDigits c - precision : ℕ)) = P := by
      intro hdvd
      have hmul := (roundHalfEven_mul_eq hpos).2 hdvd
      refine ⟨fun hzero => hc ?_, (shift_value e hmul).trans h⟩
      rw [← hmul, hzero, Nat.zero_mul]
    have hbound : ((10 ^ (emax + 1).toNat : ℕ) : ℚ) = (10 : ℚ) ^ (emax + 1) := by
      have hemax : emax + 1 = (((emax + 1).toNat : ℕ) : ℤ) := by decide
      rw [hemax, zpow_natCast]
      push_cast
      rw [Int.toNat_natCast]
    simp only [finalize, excess_of_value hc h]
    constructor
    · rintro ⟨c', e', hf, ht⟩
      split_ifs at hf with hover
      obtain ⟨rfl, rfl⟩ : _ = c' ∧ _ = e' := by simpa using hf
      have hdvd := dvd_of_truncated h ht
      obtain ⟨hne, hvalue⟩ := hkept hdvd
      refine ⟨(dvd_iff_significant hc).1 hdvd, ?_⟩
      have hlt := finite_lt hvalue
      have hle : (10 : ℚ) ^ (e + (numDigits c - precision : ℕ) +
          numDigits (roundHalfEven c (10 ^ (numDigits c - precision)))) ≤ (10 : ℚ) ^ (emax + 1) := by
        refine zpow_le_zpow_right₀ (by norm_num) ?_
        have hnot := not_and.1 hover hne
        omega
      rw [← hbound] at hle
      exact Nat.cast_lt.1 (hlt.trans_le hle)
    · rintro ⟨hsig, hP⟩
      obtain ⟨hne, hvalue⟩ := hkept ((dvd_iff_significant hc).2 hsig)
      have hcast : (P : ℚ) < (10 : ℚ) ^ (emax + 1) := by
        rw [← hbound]
        exact Nat.cast_lt.2 hP
      have hexp := (zpow_lt_zpow_iff_right₀ (by norm_num)).1 ((le_finite hne hvalue).trans_lt hcast)
      refine ⟨_, _, if_neg ?_, truncated_of_value hvalue⟩
      rintro ⟨-, hover⟩
      omega

/-! ## Whole decimals -/

/-- The value without its sign is a natural number when the value is whole. -/
theorem natAbs_of_value {s : Bool} {c : ℕ} {e i : ℤ} (h : value s c e = i) :
    (c : ℚ) * (10 : ℚ) ^ e = (i.natAbs : ℕ) := by
  have hnonneg : (0 : ℚ) ≤ (c : ℚ) * (10 : ℚ) ^ e := by positivity
  rw [value, mul_assoc] at h
  rw [Nat.cast_natAbs, Int.cast_abs, ← h, abs_mul, abs_of_nonneg hnonneg]
  cases s <;> simp

/-- A finite decimal equals its integral value exactly when it is whole. -/
theorem Decimal.eq_toIntegralValue {s : Bool} {c : ℕ} {e : ℤ} :
    ∃ whole, (finite s c e).toIntegralValue = .ok whole ∧
      ((finite s c e).eq whole = true ↔ ∃ i : ℤ, value s c e = i) := by
  refine ⟨_, rfl, ?_⟩
  by_cases he : 0 ≤ e
  · rw [if_pos he]
    simp only [Decimal.eq, decide_true, true_iff]
    refine ⟨(if s then -1 else 1) * c * 10 ^ e.toNat, ?_⟩
    have hexp : e = ((e.toNat : ℕ) : ℤ) := by omega
    rw [value, hexp, zpow_natCast, Int.toNat_natCast]
    push_cast
    cases s <;> simp
  · rw [if_neg he]
    simp only [Decimal.eq, decide_eq_true_eq]
    constructor
    · intro h
      refine ⟨(if s then -1 else 1) * roundHalfEven c (10 ^ (-e).toNat), ?_⟩
      rw [h, value]
      push_cast
      cases s <;> simp
    · rintro ⟨i, hi⟩
      have habs := natAbs_of_value hi
      rcases value_eq_natCast habs with ⟨a, rfl, -⟩ | ⟨b, rfl, hb, hc⟩
      · omega
      · have hdvd : 10 ^ b ∣ c := ⟨i.natAbs, by rw [hc, Nat.mul_comm]⟩
        have hround : roundHalfEven c (10 ^ b) = i.natAbs := by
          rw [roundHalfEven_of_dvd hdvd (by positivity), hc]
          exact Nat.mul_div_cancel _ (by positivity)
        rw [neg_neg, Int.toNat_natCast, hround, value, mul_assoc, habs, value]
        simp

theorem significant_of_value {c n : ℕ} {e : ℤ} (h : (c : ℚ) * (10 : ℚ) ^ e = n) :
    Significant c ↔ Significant n := by
  rcases value_eq_natCast h with ⟨a, -, rfl⟩ | ⟨b, -, -, rfl⟩
  · exact (significant_mul_pow a).symm
  · exact significant_mul_pow b

end PyDecimal
