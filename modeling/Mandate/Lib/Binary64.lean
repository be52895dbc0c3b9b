/-
  Binary floating-point numbers, as far as a probability needs them.

  A finite number is the rational it denotes; the sign of a zero is left out.
  What the arithmetic rounds to is a parameter, a `Rounding`: it keeps the order
  and the integers a number can hold.  `scale_round` is what this gives for a
  number between zero and one.
-/
import Mathlib.Data.Rat.Floor
import Mathlib.Tactic.Linarith
import Mathlib.Tactic.Positivity

inductive Binary64 where
  | finite (q : ℚ)
  | infinite (negative : Bool)
  | nan
deriving DecidableEq

namespace Binary64

instance : OfNat Binary64 0 := ⟨.finite 0⟩

instance : OfNat Binary64 1 := ⟨.finite 1⟩

/-- `<`, which no comparison with nan satisfies. -/
def less : Binary64 → Binary64 → Bool
  | finite p, finite q => p < q
  | infinite true, finite _ => true
  | infinite true, infinite negative => !negative
  | finite _, infinite negative => !negative
  | _, _ => false

/-- The number nearest to a rational, and what a sum of numbers comes to. -/
class Rounding where
  nearest : ℚ → Binary64
  sum : List Binary64 → Binary64
  number : ∀ q, nearest q ≠ nan
  exact : ∀ n : ℕ, n ≤ 2 ^ 53 → nearest n = finite n
  mono : ∀ p q, p ≤ q → less (nearest q) (nearest p) = false

/-! ## Rounding to an integer -/

/-- To the nearest integer, and to the even one of two. -/
def roundHalfEven (q : ℚ) : ℤ :=
  let rest := q - ⌊q⌋
  if rest < 1 / 2 then ⌊q⌋
  else if 1 / 2 < rest then ⌊q⌋ + 1
  else if ⌊q⌋ % 2 = 0 then ⌊q⌋
  else ⌊q⌋ + 1

theorem roundHalfEven_mem {q : ℚ} {n : ℕ} (h0 : 0 ≤ q) (hn : q ≤ n) :
    0 ≤ roundHalfEven q ∧ roundHalfEven q ≤ n := by
  have hfloor : 0 ≤ ⌊q⌋ := Int.floor_nonneg.2 h0
  have hle : ⌊q⌋ ≤ n := by
    have h : (⌊q⌋ : ℚ) ≤ ((n : ℤ) : ℚ) := (Int.floor_le q).trans (by exact_mod_cast hn)
    exact_mod_cast h
  -- at the upper end nothing is left to round
  have hend : ¬ q - ⌊q⌋ < 1 / 2 → ⌊q⌋ + 1 ≤ n := by
    intro hrest
    rcases hle.lt_or_eq with hlt | heq
    · exact hlt
    · have hq : (⌊q⌋ : ℚ) = n := by rw [heq]; rfl
      exact absurd (show q - ⌊q⌋ < 1 / 2 by linarith) hrest
  unfold roundHalfEven
  simp only
  split_ifs with h1 h2 h3
  · exact ⟨hfloor, hle⟩
  · exact ⟨by omega, hend h1⟩
  · exact ⟨hfloor, hle⟩
  · exact ⟨by omega, hend h1⟩

/-- Why a number is rounded to no integer. -/
inductive NoInteger where
  | infinity
  | nan

/-- `round`. -/
def round : Binary64 → Except NoInteger ℤ
  | finite q => .ok (roundHalfEven q)
  | infinite _ => .error .infinity
  | nan => .error .nan

/-! ## Scaling -/

variable [Rounding]

/-- The product with a positive integer. -/
def scale (p : Binary64) (n : ℕ) : Binary64 :=
  match p with
  | finite q => Rounding.nearest (q * n)
  | infinite negative => infinite negative
  | nan => nan

/-- A number between zero and one stays between zero and the factor. -/
theorem scale_round {q : ℚ} {n : ℕ} (h0 : 0 ≤ q) (h1 : q ≤ 1) (hn : n ≤ 2 ^ 53) :
    ∃ k : ℤ, ((finite q).scale n).round = .ok k ∧ 0 ≤ k ∧ k ≤ n := by
  have hupper : q * n ≤ n := mul_le_of_le_one_left (Nat.cast_nonneg n) h1
  have hlower : (0 : ℚ) ≤ q * n := mul_nonneg h0 (Nat.cast_nonneg n)
  have hbelow := Rounding.mono _ _ hupper
  have habove := Rounding.mono _ _ hlower
  have hzero : Rounding.nearest 0 = finite 0 := by
    have h := Rounding.exact 0 (Nat.zero_le _)
    rwa [Nat.cast_zero] at h
  rw [Rounding.exact n hn] at hbelow
  rw [hzero] at habove
  simp only [scale]
  cases hr : Rounding.nearest (q * n) with
  | nan => exact absurd hr (Rounding.number _)
  | infinite negative => cases negative <;> simp [hr, less] at hbelow habove
  | finite r =>
    simp only [hr, less, decide_eq_false_iff_not, not_lt] at hbelow habove
    exact ⟨_, rfl, roundHalfEven_mem habove hbelow⟩

end Binary64
