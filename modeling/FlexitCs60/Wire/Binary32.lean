import Mathlib.Data.Int.Log
import Mathlib.Data.Rat.Floor
import Mathlib.Tactic.Linarith
import Mathlib.Tactic.Positivity

/-! Rounding to single precision: to the nearest value of 24 significant bits, to the
even one of two, below the smallest normal value on its grid. Overflow is not modelled. -/
namespace Binary32

def roundEven (q : ℚ) : ℤ :=
  if q - ⌊q⌋ < 1 / 2 then ⌊q⌋
  else if 1 / 2 < q - ⌊q⌋ then ⌊q⌋ + 1
  else if ⌊q⌋ % 2 = 0 then ⌊q⌋ else ⌊q⌋ + 1

/-- The exponent of the last bit that is kept. -/
def lastPlace (q : ℚ) : ℤ := max (Int.log 2 |q|) (-126) - 23

def round (q : ℚ) : ℚ := roundEven (q / 2 ^ lastPlace q) * 2 ^ lastPlace q

theorem roundEven_near (q : ℚ) : |(roundEven q : ℚ) - q| ≤ 1 / 2 := by
  have lower := Int.floor_le q
  have upper := Int.lt_floor_add_one q
  unfold roundEven
  split_ifs with below above even
  all_goals
    push_cast
    rw [abs_le]
    constructor <;> linarith

/-- The error is at most half of the last place. -/
theorem round_near (q : ℚ) : |round q - q| ≤ 1 / 2 * 2 ^ lastPlace q := by
  have place : (0 : ℚ) < 2 ^ lastPlace q := zpow_pos two_pos _
  have scaled : round q - q =
      (roundEven (q / 2 ^ lastPlace q) - q / 2 ^ lastPlace q) * 2 ^ lastPlace q := by
    rw [sub_mul, div_mul_cancel₀ _ place.ne']
    rfl
  rw [scaled, abs_mul, abs_of_pos place]
  exact mul_le_mul_of_nonneg_right (roundEven_near _) place.le

theorem lastPlace_le {q : ℚ} {n : ℕ} (small : |q| < 2 ^ (n + 1)) : lastPlace q ≤ n - 23 := by
  have exponent : Int.log 2 |q| ≤ n := by
    rcases (abs_nonneg q).eq_or_lt with zero | positive
    · rw [← zero, Int.log_zero_right]
      exact Int.natCast_nonneg n
    · have below : |q| < ((2 : ℕ) : ℚ) ^ ((n : ℤ) + 1) := by exact_mod_cast small
      exact Int.lt_add_one_iff.mp ((Int.lt_zpow_iff_log_lt Nat.one_lt_two positive).mp below)
  have normal : (-126 : ℤ) ≤ n := by omega
  exact Int.sub_le_sub_right (max_le exponent normal) 23

/-- A value below `2 ^ (n + 1)` is off by at most `2 ^ (n - 24)`. -/
theorem round_near_of_lt {q : ℚ} {n : ℕ} (small : |q| < 2 ^ (n + 1)) :
    |round q - q| ≤ 1 / 2 * 2 ^ ((n : ℤ) - 23) :=
  (round_near q).trans (mul_le_mul_of_nonneg_left
    (zpow_le_zpow_right₀ one_le_two (lastPlace_le small)) one_half_pos.le)

example : round (201 / 10) = 10538189 / 2 ^ 19 := by decide +kernel

end Binary32
