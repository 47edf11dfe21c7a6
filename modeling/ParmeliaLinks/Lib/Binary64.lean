/-
ParmeliaLinks/Lib/Binary64.lean

Numbers of double precision as the rational numbers that they stand for.  Rounding
takes a rational number to the nearest of them, ties to the even one, with the
subnormal numbers below `2 ^ -1022`; a finite number is one that rounding leaves
as it is, and a product is the rounded exact product.  Magnitudes have no upper
bound here, so an operation means what it says only where it does not overflow.

What a program that takes the ceiling of a product needs of this is how far the
ceiling can lie below the exact product: `le_ceil_round`.
-/
import Mathlib.Data.Int.Log
import Mathlib.Data.Rat.Floor
import Mathlib.Algebra.Order.Round
import Mathlib.Algebra.Order.Field.Power
import Mathlib.Tactic.Linarith
import Mathlib.Tactic.Positivity
import Mathlib.Tactic.FieldSimp

namespace ParmeliaLinks

/-- The nearest integer, and the even one of two. -/
def roundHalfEven (q : ℚ) : ℤ :=
  let below := ⌊q⌋
  let rest := q - below
  if rest < 1 / 2 then below
  else if 1 / 2 < rest then below + 1
  else if below % 2 = 0 then below
  else below + 1

/-- The exponent of the last place of the numbers around a rational number. -/
def lastPlace (q : ℚ) : ℤ := max (Int.log 2 |q| - 52) (-1074)

/-- The nearest number of double precision. -/
def roundToBinary64 (q : ℚ) : ℚ := roundHalfEven (q / 2 ^ lastPlace q) * 2 ^ lastPlace q

/-- A finite number of double precision. -/
structure Binary64 where
  value : ℚ
  rounded : roundToBinary64 value = value

/-! ### Rounding to an integer -/

theorem roundHalfEven_cases (q : ℚ) :
    (roundHalfEven q = ⌊q⌋ ∧ q ≤ ⌊q⌋ + 1 / 2) ∨
      (roundHalfEven q = ⌊q⌋ + 1 ∧ ⌊q⌋ + 1 / 2 ≤ q) := by
  unfold roundHalfEven
  dsimp only
  split
  · left
    refine ⟨rfl, ?_⟩
    linarith
  · split
    · right
      refine ⟨rfl, ?_⟩
      linarith
    · split
      · left
        refine ⟨rfl, ?_⟩
        linarith
      · right
        refine ⟨rfl, ?_⟩
        linarith

theorem sub_half_le_roundHalfEven (q : ℚ) : q - 1 / 2 ≤ roundHalfEven q := by
  have upper := Int.lt_floor_add_one q
  rcases roundHalfEven_cases q with ⟨h, le⟩ | ⟨h, le⟩
  · rw [h]
    linarith
  · rw [h]
    push_cast
    linarith

theorem roundHalfEven_le {q : ℚ} {n : ℤ} (h : q ≤ n) : roundHalfEven q ≤ n := by
  rcases roundHalfEven_cases q with ⟨rounded, -⟩ | ⟨rounded, le⟩
  · rw [rounded]
    exact_mod_cast (Int.floor_le q).trans h
  · rw [rounded]
    have : (⌊q⌋ : ℚ) < n := by linarith
    exact_mod_cast this

@[simp]
theorem roundHalfEven_intCast (n : ℤ) : roundHalfEven n = n := by
  simp [roundHalfEven]

/-! ### Rounding to double precision -/

theorem lastPlace_pos (q : ℚ) : (0 : ℚ) < 2 ^ lastPlace q := by
  positivity

theorem roundToBinary64_zero : roundToBinary64 0 = 0 := by
  have : roundHalfEven 0 = 0 := roundHalfEven_intCast 0
  simp [roundToBinary64, this]

/-- Rounding down loses at most half of the last place. -/
theorem sub_half_lastPlace_le_round (q : ℚ) :
    q - 2 ^ lastPlace q / 2 ≤ roundToBinary64 q := by
  have place := lastPlace_pos q
  have half := sub_half_le_roundHalfEven (q / 2 ^ lastPlace q)
  calc q - 2 ^ lastPlace q / 2 = (q / 2 ^ lastPlace q - 1 / 2) * 2 ^ lastPlace q := by
        field_simp
    _ ≤ roundToBinary64 q := mul_le_mul_of_nonneg_right half place.le

/-- The last place of a number from the normal range on is small beside it. -/
theorem lastPlace_le {q : ℚ} (normal : 2 ^ (-1022 : ℤ) ≤ q) :
    (2 : ℚ) ^ lastPlace q ≤ q / 2 ^ 52 := by
  have pos : 0 < q := lt_of_lt_of_le (by positivity) normal
  have exponent : -1022 ≤ Int.log 2 q :=
    (Int.zpow_le_iff_le_log (by decide) pos).1 (by exact_mod_cast normal)
  have place : lastPlace q = Int.log 2 q - 52 := by
    rw [lastPlace, abs_of_pos pos]
    omega
  have le := Int.zpow_log_le_self (b := 2) (by decide) pos
  rw [place, zpow_sub₀ (by decide)]
  push_cast at le
  exact div_le_div_of_nonneg_right le (by positivity)

/-- A bound that is a whole number survives rounding. -/
theorem roundToBinary64_le {q : ℚ} {n : ℕ} (pos : 0 ≤ q) (small : n < 2 ^ 53) (h : q ≤ n) :
    roundToBinary64 q ≤ n := by
  have exponent : lastPlace q ≤ 0 := by
    rcases pos.eq_or_lt with zero | pos
    · rw [← zero]
      simp [lastPlace]
    · have below : q < (2 : ℕ) ^ (53 : ℤ) := lt_of_le_of_lt h (by exact_mod_cast small)
      have := (Int.lt_zpow_iff_log_lt (by decide) pos).1 below
      rw [lastPlace, abs_of_pos pos]
      omega
  obtain ⟨k, hk⟩ := Int.eq_ofNat_of_zero_le (Int.neg_nonneg.2 exponent)
  have place : (2 : ℚ) ^ lastPlace q = 1 / 2 ^ k := by
    rw [← neg_neg (lastPlace q), hk, zpow_neg]
    simp
  have scaled : q / 2 ^ lastPlace q ≤ ((n * 2 ^ k : ℕ) : ℤ) := by
    rw [place, div_div_eq_mul_div, div_one]
    push_cast
    exact mul_le_mul_of_nonneg_right h (by positivity)
  have rounded : (roundHalfEven (q / 2 ^ lastPlace q) : ℚ) ≤ ((n * 2 ^ k : ℕ) : ℤ) :=
    by exact_mod_cast roundHalfEven_le scaled
  calc roundToBinary64 q = roundHalfEven (q / 2 ^ lastPlace q) * (1 / 2 ^ k) := by
        rw [roundToBinary64, place]
    _ ≤ ((n * 2 ^ k : ℕ) : ℤ) * (1 / 2 ^ k) := mul_le_mul_of_nonneg_right rounded (by positivity)
    _ = n := by
        push_cast
        field_simp

/-- There is nothing between zero and the least subnormal number. -/
theorem Binary64.least (x : Binary64) (pos : 0 < x.value) : 2 ^ (-1074 : ℤ) ≤ x.value := by
  have place := lastPlace_pos x.value
  have value : roundHalfEven (x.value / 2 ^ lastPlace x.value) * 2 ^ lastPlace x.value = x.value :=
    x.rounded
  have digits : 0 < roundHalfEven (x.value / 2 ^ lastPlace x.value) := by
    rw [← value] at pos
    exact_mod_cast pos_of_mul_pos_left pos place.le
  have least : (2 : ℚ) ^ (-1074 : ℤ) ≤ 2 ^ lastPlace x.value :=
    zpow_le_zpow_right₀ (by norm_num) (le_max_right _ _)
  have one : (1 : ℚ) ≤ roundHalfEven (x.value / 2 ^ lastPlace x.value) := by exact_mod_cast digits
  rw [← value]
  nlinarith

/-- The ceiling of a rounded number lies below the number by a tiny part of itself. -/
theorem le_ceil_round {q : ℚ} (least : 2 ^ (-1074 : ℤ) ≤ q) :
    q * (1 - 1 / 2 ^ 53) ≤ ⌈roundToBinary64 q⌉ := by
  have pos : 0 < q := lt_of_lt_of_le (by positivity) least
  have down := sub_half_lastPlace_le_round q
  have ceil := Int.le_ceil (roundToBinary64 q)
  by_cases normal : 2 ^ (-1022 : ℤ) ≤ q
  · have place := lastPlace_le normal
    linarith
  · -- a subnormal number is below one, and its ceiling is at least one
    have place : lastPlace q = -1074 := by
      have := (Int.lt_zpow_iff_log_lt (b := 2) (by decide) pos).1 (by push_cast; exact not_le.1 normal)
      rw [lastPlace, abs_of_pos pos]
      omega
    rw [place] at down
    have positive : 0 < roundToBinary64 q := by
      have : (0 : ℚ) < 2 ^ (-1074 : ℤ) := by positivity
      linarith
    have one : (1 : ℚ) ≤ ⌈roundToBinary64 q⌉ := by
      exact_mod_cast Int.ceil_pos.2 positive
    have small : q < 1 := (not_le.1 normal).trans (by
      exact zpow_lt_one_of_neg₀ (by norm_num) (by norm_num))
    nlinarith

end ParmeliaLinks
