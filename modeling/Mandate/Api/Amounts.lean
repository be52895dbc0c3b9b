/-
  The console's amount field.

  `parseMinor` reads a whole-dollar amount with decimal arithmetic in the
  default context.  It is exact and raises `ValueError` only, but for
  signalling NaNs, infinity, and amounts with too many digits
  (`parses_exactly_iff`).
-/
import Mandate.Lib.PyDecimal

namespace Mandate

open PyDecimal

/-- What reading an amount raises. -/
inductive AmountError where
  | valueError (msg : String)
  | signal (s : Signal)
  | overflowError
deriving DecidableEq

variable [CharForms]

/-- `int` of a decimal. -/
def decimalToInt : Decimal → Except AmountError ℤ
  | .finite negative c e => .ok (truncated negative c e)
  | .infinity _ => .error .overflowError
  | .quietNaN | .signalingNaN => .error (.valueError "cannot convert NaN to integer")

/-- A signal of the context as an exception. -/
def raised {α : Type} : Except Signal α → Except AmountError α
  | .ok a => .ok a
  | .error s => .error (.signal s)

/-- The text without white space around it, dollar signs, commas and spaces. -/
def amountText (raw : String) : List Char :=
  (strip raw.toList).filter fun c => c ≠ '$' && c ≠ ',' && c ≠ ' '

/-- `parse_minor`. -/
def parseMinor : Option String → Except AmountError (Option ℤ)
  | none => .ok none
  | some raw =>
    if strip raw.toList = [] then .ok none
    else match ofText (amountText raw) with
      | none => .error (.valueError "amount must be a whole-dollar number")
      | some dollars => do
        let whole ← raised dollars.toIntegralValue
        if !dollars.eq whole then throw (.valueError "amount must be whole currency units")
        if dollars.isNegative then throw (.valueError "amount must be non-negative")
        return some (← decimalToInt (← raised (dollars.times 100)))

/-! ## Exactness -/

/-- No amount is entered. -/
def Blank (raw : Option String) : Prop := ∀ text ∈ raw, strip text.toList = []

/-- The decimal that is entered. -/
def enteredDecimal (raw : Option String) : Option Decimal :=
  raw.bind fun text => ofText (amountText text)

/-- The text is a decimal literal of the whole number `n`. -/
def EntersWhole (raw : Option String) (n : ℕ) : Prop :=
  ∃ s c e, enteredDecimal raw = some (.finite s c e) ∧ value s c e = n

/-- A blank field is no amount, a literal of a whole number of dollars is that
    many dollars, and anything else raises `ValueError`. -/
structure ParsesExactly (raw : Option String) : Prop where
  blank : Blank raw → parseMinor raw = .ok none
  whole : ¬ Blank raw → ∀ n, EntersWhole raw n → parseMinor raw = .ok (some (100 * n : ℕ))
  other : ¬ Blank raw → (∀ n, ¬ EntersWhole raw n) →
    ∃ m, parseMinor raw = .error (.valueError m)

/-- The literal is not a signalling NaN or positive infinity, and a whole number
    it denotes has at most 28 digits before its trailing zeros and is in range
    after it is multiplied. -/
structure WithinContext (raw : Option String) : Prop where
  quiet : enteredDecimal raw ≠ some .signalingNaN
  finite : enteredDecimal raw ≠ some (.infinity false)
  digits : ∀ n, EntersWhole raw n → Significant n ∧ 100 * n < 10 ^ (emax + 1).toNat

theorem parseMinor_finite {text : String} {s : Bool} {c : ℕ} {e : ℤ}
    (hb : strip text.toList ≠ []) (h : ofText (amountText text) = some (.finite s c e)) :
    ∃ isWhole : Bool, (isWhole = true ↔ ∃ i : ℤ, value s c e = i) ∧ parseMinor (some text) =
      if isWhole = false then .error (.valueError "amount must be whole currency units")
      else if value s c e < 0 then .error (.valueError "amount must be non-negative")
      else do return some (← decimalToInt (← raised (finalize s (c * 100) e))) := by
  obtain ⟨whole, hwhole, heq⟩ := @Decimal.eq_toIntegralValue s c e
  refine ⟨_, heq, ?_⟩
  rw [parseMinor, if_neg hb, h]
  dsimp only
  rw [hwhole]
  cases hw : (Decimal.finite s c e).eq whole with
  | false => simp [raised, hw, bind, Except.bind, throw, throwThe, MonadExceptOf.throw]
  | true => by_cases hneg : value s c e < 0 <;> simp [raised, bind, Except.bind, Decimal.isNegative,
      hw, hneg, Decimal.times, throw, throwThe, MonadExceptOf.throw, pure, Except.pure]

omit [CharForms] in
/-- A whole number of dollars is converted to cents exactly when the context
    keeps the product. -/
theorem product_iff {s : Bool} {c n : ℕ} {e : ℤ} (h : value s c e = n) :
    (do return some (← decimalToInt (← raised (finalize s (c * 100) e)))) =
      (.ok (some ((100 * n : ℕ) : ℤ)) : Except AmountError (Option ℤ)) ↔
      Significant n ∧ 100 * n < 10 ^ (emax + 1).toNat := by
  have habs := natAbs_of_value (i := n) (by exact_mod_cast h)
  rw [Int.natAbs_natCast] at habs
  have hsig : Significant (c * 100) ↔ Significant n :=
    (significant_mul_pow 2).trans (significant_of_value habs)
  have hproduct : ((c * 100 : ℕ) : ℚ) * (10 : ℚ) ^ e = (100 * n : ℕ) := by
    rw [Nat.cast_mul, Nat.cast_mul, ← habs]
    ring
  by_cases hc : c = 0
  · subst hc
    have hn : n = 0 := by
      rw [Nat.cast_zero, zero_mul] at habs
      exact_mod_cast habs.symm
    subst hn
    rw [Nat.zero_mul, finalize_zero]
    have hzero : Significant 0 := ⟨0, 0, rfl, by positivity⟩
    simp [raised, decimalToInt, truncated_zero, hzero, bind, Except.bind, pure, Except.pure]
  · have hs : s = false := by
      by_contra hs
      rw [Bool.not_eq_false] at hs
      rw [value, hs, if_pos rfl, mul_assoc, habs] at h
      have hn : (n : ℚ) = 0 := by linarith
      rw [hn, mul_eq_zero] at habs
      rcases habs with h0 | h0
      · exact hc (by exact_mod_cast h0)
      · exact absurd h0 (zpow_ne_zero e (by norm_num))
    subst hs
    rw [← hsig, ← finalize_exact_iff hproduct]
    constructor
    · intro hok
      cases hf : finalize false (c * 100) e with
      | error x => simp [hf, raised, bind, Except.bind] at hok
      | ok d =>
        obtain ⟨c', e', rfl⟩ := finalize_finite hf
        simp only [hf, raised, decimalToInt, bind, Except.bind, pure, Except.pure, Except.ok.injEq,
          Option.some.injEq] at hok
        exact ⟨c', e', rfl, hok⟩
    · rintro ⟨c', e', hf, ht⟩
      simp only [hf, raised, decimalToInt, bind, Except.bind, pure, Except.pure, ht]

/-- A field with something else than a whole number parses exactly when it raises
    `ValueError`. -/
theorem parsesExactly_of_not_whole {raw : Option String} (hb : ¬ Blank raw)
    (hn : ∀ n, ¬ EntersWhole raw n) :
    ParsesExactly raw ↔ ∃ m, parseMinor raw = .error (.valueError m) :=
  ⟨fun h => h.other hb hn, fun h => ⟨fun hblank => absurd hblank hb,
    fun _ n hw => absurd hw (hn n), fun _ _ => h⟩⟩

theorem not_entersWhole {raw : Option String} {d : Option Decimal} (h : enteredDecimal raw = d)
    (hd : ∀ s c e, d ≠ some (.finite s c e)) (n : ℕ) : ¬ EntersWhole raw n := by
  rintro ⟨s, c, e, hf, -⟩
  exact hd s c e (h ▸ hf)

/-- What becomes of infinities and NaNs. -/
theorem parseMinor_special {text : String} {d : Decimal} (hb : strip text.toList ≠ [])
    (h : ofText (amountText text) = some d) (hd : ∀ s c e, d ≠ .finite s c e) :
    (∃ m, parseMinor (some text) = .error (.valueError m)) ↔
      d ≠ .signalingNaN ∧ d ≠ .infinity false := by
  rw [parseMinor, if_neg hb, h]
  cases d with
  | finite s c e => exact absurd rfl (hd s c e)
  | quietNaN => simp [Decimal.toIntegralValue, Decimal.eq, raised, bind, Except.bind, throw,
      throwThe, MonadExceptOf.throw]
  | signalingNaN => simp [Decimal.toIntegralValue, raised, bind, Except.bind]
  | infinity negative => cases negative <;> simp [Decimal.toIntegralValue, Decimal.eq,
      Decimal.isNegative, Decimal.times, decimalToInt, raised, bind, Except.bind, throw, throwThe,
      MonadExceptOf.throw]

/-- A finite decimal that is not a whole number raises `ValueError`. -/
theorem parseMinor_not_whole {text : String} {s : Bool} {c : ℕ} {e : ℤ}
    (hb : strip text.toList ≠ []) (h : ofText (amountText text) = some (.finite s c e))
    (hn : ∀ n : ℕ, value s c e ≠ n) : ∃ m, parseMinor (some text) = .error (.valueError m) := by
  obtain ⟨isWhole, hwhole, hparse⟩ := parseMinor_finite hb h
  rw [hparse]
  split_ifs with hw hneg
  · exact ⟨_, rfl⟩
  · exact ⟨_, rfl⟩
  · obtain ⟨i, hi⟩ := hwhole.1 (by simpa using hw)
    rw [hi, Int.cast_lt_zero, not_lt] at hneg
    obtain ⟨n, rfl⟩ := Int.eq_ofNat_of_zero_le hneg
    exact absurd (by exact_mod_cast hi) (hn n)

/-- A whole number of dollars is its number of cents exactly when the context
    keeps the product. -/
theorem parseMinor_whole {text : String} {s : Bool} {c n : ℕ} {e : ℤ}
    (hb : strip text.toList ≠ []) (h : ofText (amountText text) = some (.finite s c e))
    (hn : value s c e = n) : parseMinor (some text) = .ok (some (100 * n : ℕ)) ↔
      Significant n ∧ 100 * n < 10 ^ (emax + 1).toNat := by
  obtain ⟨isWhole, hwhole, hparse⟩ := parseMinor_finite hb h
  have hw : isWhole = true := hwhole.2 ⟨n, by exact_mod_cast hn⟩
  have hneg : ¬ value s c e < 0 := by
    rw [hn]
    exact not_lt.2 (Nat.cast_nonneg n)
  rw [hparse, if_neg (by simp [hw]), if_neg hneg]
  exact product_iff hn

/-- A field is parsed exactly when it is blank or stays within the context. -/
theorem parses_exactly_iff (raw : Option String) :
    ParsesExactly raw ↔ (¬ Blank raw → WithinContext raw) := by
  by_cases hblank : Blank raw
  · have hnone : parseMinor raw = .ok none := by
      cases raw with
      | none => rfl
      | some text => exact if_pos (hblank text rfl)
    exact ⟨fun _ h => absurd hblank h, fun _ => ⟨fun _ => hnone, fun h => absurd hblank h,
      fun h => absurd hblank h⟩⟩
  obtain ⟨text, rfl, hb⟩ : ∃ text, raw = some text ∧ strip text.toList ≠ [] := by
    simpa [Blank] using hblank
  have hentered : enteredDecimal (some text) = ofText (amountText text) := by
    rw [enteredDecimal, Option.bind_some]
  simp only [hblank, not_false_eq_true, forall_const]
  cases hd : ofText (amountText text) with
  | none =>
    have hn := not_entersWhole (hentered.trans hd) (by simp)
    have hraises : parseMinor (some text) =
        .error (.valueError "amount must be a whole-dollar number") := by
      rw [parseMinor, if_neg hb, hd]
    rw [parsesExactly_of_not_whole hblank hn]
    exact ⟨fun _ => ⟨by simp [hentered, hd], by simp [hentered, hd],
      fun n h => absurd h (hn n)⟩, fun _ => ⟨_, hraises⟩⟩
  | some d =>
    by_cases hfinite : ∃ s c e, d = .finite s c e
    · obtain ⟨s, c, e, rfl⟩ := hfinite
      by_cases hwhole : ∃ n : ℕ, value s c e = n
      · obtain ⟨n, hn⟩ := hwhole
        have henters : ∀ m, EntersWhole (some text) m ↔ m = n := by
          intro m
          constructor
          · rintro ⟨s', c', e', h, hm⟩
            rw [hentered, hd, Option.some.injEq, Decimal.finite.injEq] at h
            obtain ⟨rfl, rfl, rfl⟩ := h
            rw [hn] at hm
            exact_mod_cast hm.symm
          · rintro rfl
            exact ⟨s, c, e, hentered.trans hd, hn⟩
        have hparse := parseMinor_whole hb hd hn
        constructor
        · intro h
          refine ⟨by simp [hentered, hd], by simp [hentered, hd], fun m hm => ?_⟩
          rw [(henters m).1 hm]
          exact hparse.1 (h.whole hblank n ((henters n).2 rfl))
        · intro h
          refine ⟨fun hbl => absurd hbl hblank, fun _ m hm => ?_,
            fun _ hnone => absurd ((henters n).2 rfl) (hnone n)⟩
          rw [(henters m).1 hm]
          exact hparse.2 (h.digits n ((henters n).2 rfl))
      · have hn : ∀ n, ¬ EntersWhole (some text) n := by
          rintro n ⟨s', c', e', h, hm⟩
          rw [hentered, hd, Option.some.injEq, Decimal.finite.injEq] at h
          obtain ⟨rfl, rfl, rfl⟩ := h
          exact hwhole ⟨n, hm⟩
        rw [parsesExactly_of_not_whole hblank hn]
        exact ⟨fun _ => ⟨by simp [hentered, hd], by simp [hentered, hd],
          fun n h => absurd h (hn n)⟩,
          fun _ => parseMinor_not_whole hb hd fun n hv => hwhole ⟨n, hv⟩⟩
    · have hspecial : ∀ s c e, d ≠ .finite s c e := fun s c e h => hfinite ⟨s, c, e, h⟩
      have hn := not_entersWhole (hentered.trans hd) fun s c e h =>
        hspecial s c e (Option.some.inj h)
      rw [parsesExactly_of_not_whole hblank hn, parseMinor_special hb hd hspecial]
      refine ⟨fun h => ⟨?_, ?_, fun n hw => absurd hw (hn n)⟩, fun h => ⟨?_, ?_⟩⟩
      · rw [hentered, hd]
        exact fun he => h.1 (Option.some.inj he)
      · rw [hentered, hd]
        exact fun he => h.2 (Option.some.inj he)
      · rintro rfl
        exact h.quiet (hentered.trans hd)
      · rintro rfl
        exact h.finite (hentered.trans hd)

/-! ## Amounts out of reach -/

/-- A field that raises another exception than `ValueError` is not parsed
    exactly. -/
theorem not_parsesExactly_of_raises {raw : Option String} {e : AmountError}
    (hb : ¬ Blank raw) (hd : ∀ s c e, enteredDecimal raw ≠ some (.finite s c e))
    (h : parseMinor raw = .error e) (he : ∀ m, e ≠ .valueError m) : ¬ ParsesExactly raw := by
  rw [parsesExactly_of_not_whole hb (not_entersWhole rfl hd), h]
  rintro ⟨m, hm⟩
  exact he m (Except.error.inj hm)

omit [CharForms] in
/-- A signalling NaN raises `InvalidOperation`, infinity `OverflowError`, and an
    amount of 29 digits becomes another amount. -/
theorem amounts_missed :
    let _ := CharForms.ascii
    parseMinor (some "sNaN") = .error (.signal .invalidOperation) ∧
    parseMinor (some " $Infinity") = .error .overflowError ∧
    parseMinor (some "12,345678901234567890123456789") =
      .ok (some 1234567890123456789012345679000) ∧
    ¬ ParsesExactly (some "sNaN") ∧ ¬ ParsesExactly (some " $Infinity") ∧
    ¬ ParsesExactly (some "12,345678901234567890123456789") := by
  intro _
  have hnan : parseMinor (some "sNaN") = .error (.signal .invalidOperation) := by decide +kernel
  have hinf : parseMinor (some " $Infinity") = .error .overflowError := by decide +kernel
  have hlong : parseMinor (some "12,345678901234567890123456789") =
      .ok (some 1234567890123456789012345679000) := by decide +kernel
  have hentered : enteredDecimal (some "12,345678901234567890123456789") =
      some (.finite false 12345678901234567890123456789 0) := by decide +kernel
  refine ⟨hnan, hinf, hlong, ?_, ?_, ?_⟩
  · refine not_parsesExactly_of_raises (fun h => absurd (h _ rfl) (by decide +kernel)) ?_ hnan
      (by simp)
    rw [show enteredDecimal (some "sNaN") = some .signalingNaN by decide +kernel]
    simp
  · refine not_parsesExactly_of_raises (fun h => absurd (h _ rfl) (by decide +kernel)) ?_ hinf
      (by simp)
    rw [show enteredDecimal (some " $Infinity") = some (.infinity false) by decide +kernel]
    simp
  · intro h
    have hexact := h.whole (fun hb => absurd (hb _ rfl) (by decide +kernel)) _
      ⟨_, _, _, hentered, by simp [value]; norm_cast⟩
    rw [hlong] at hexact
    exact absurd hexact (by decide)

end Mandate
