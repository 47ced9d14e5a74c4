import Mathlib.Analysis.SpecialFunctions.Log.Deriv

/-!
# The logarithm of a fraction as a series

For `0 ≤ x < 1` the logarithm of `(1 + x) / (1 - x)` is twice the sum of `x ^ (2k + 1) / (2k + 1)`.
All terms are nonnegative, so a partial sum is a lower bound, and what it leaves out is at most a
geometric series.

* `sum_le_log`, `log_le_sum_add_tail` — the partial sums from both sides.
-/

set_option autoImplicit false

namespace LogSeries

open Finset Real

/-- `x ^ (2k + 1) / (2k + 1)`. -/
noncomputable def oddPower (x : ℝ) (k : ℕ) : ℝ := x ^ (2 * k + 1) / (2 * k + 1 : ℕ)

theorem oddPower_eq (x : ℝ) (k : ℕ) : oddPower x k = x ^ (2 * k + 1) / (2 * k + 1) := by
  unfold oddPower
  push_cast
  rfl

theorem oddPower_nonneg {x : ℝ} (hx : 0 ≤ x) (k : ℕ) : 0 ≤ oddPower x k := by
  simp only [oddPower_eq]
  positivity

theorem oddPower_mono {x y : ℝ} (hx : 0 ≤ x) (hxy : x ≤ y) (k : ℕ) :
    oddPower x k ≤ oddPower y k := by
  simp only [oddPower_eq]
  gcongr

/-- A term that is `i` later is smaller by at least `x ^ 2` for each. -/
theorem oddPower_add_le {x : ℝ} (hx : 0 ≤ x) (n i : ℕ) :
    oddPower x (i + n) ≤ oddPower x n * (x ^ 2) ^ i := by
  simp only [oddPower_eq]
  rw [div_mul_eq_mul_div, ← pow_mul, ← pow_add]
  have hexp : 2 * (i + n) + 1 = 2 * n + 1 + 2 * i := by ring
  rw [hexp]
  gcongr
  omega

/-- `log ((1 + x) / (1 - x))`. -/
noncomputable def logRatio (x : ℝ) : ℝ := log (1 + x) - log (1 - x)

theorem hasSum_oddPower {x : ℝ} (hx : 0 ≤ x) (hx1 : x < 1) :
    HasSum (fun k => 2 * oddPower x k) (logRatio x) := by
  have habs : |x| < 1 := by rwa [abs_of_nonneg hx]
  have hseries := hasSum_log_sub_log_of_abs_lt_one habs
  have hterm : (fun k : ℕ => 2 * oddPower x k) = fun k : ℕ =>
      (2 : ℝ) * (1 / (2 * k + 1)) * x ^ (2 * k + 1) := by
    funext k
    simp only [oddPower_eq]
    ring
  rw [hterm]
  exact hseries

variable {x : ℝ}

/-- A partial sum is below the logarithm. -/
theorem sum_le_log (hx : 0 ≤ x) (hx1 : x < 1) (n : ℕ) :
    2 * ∑ k ∈ range n, oddPower x k ≤ logRatio x := by
  rw [mul_sum]
  exact sum_le_hasSum _ (fun k _ => mul_nonneg zero_le_two (oddPower_nonneg hx k))
    (hasSum_oddPower hx hx1)

/-- By no more than a geometric series from the first term that is left out. -/
theorem log_le_sum_add_tail (hx : 0 ≤ x) (hx1 : x < 1) (n : ℕ) :
    logRatio x ≤ 2 * ∑ k ∈ range n, oddPower x k + 2 * (oddPower x n / (1 - x ^ 2)) := by
  have hsq : x ^ 2 < 1 := by nlinarith
  have hrest : HasSum (fun i => 2 * oddPower x (i + n))
      (logRatio x - ∑ k ∈ range n, 2 * oddPower x k) :=
    (hasSum_nat_add_iff' n).mpr (hasSum_oddPower hx hx1)
  have hgeometric : HasSum (fun i => 2 * (oddPower x n * (x ^ 2) ^ i))
      (2 * (oddPower x n * (1 - x ^ 2)⁻¹)) :=
    ((hasSum_geometric_of_lt_one (sq_nonneg x) hsq).mul_left _).mul_left 2
  have hle : logRatio x - ∑ k ∈ range n, 2 * oddPower x k
      ≤ 2 * (oddPower x n * (1 - x ^ 2)⁻¹) := by
    refine hasSum_le (fun i => ?_) hrest hgeometric
    have := oddPower_add_le hx n i
    linarith
  rw [← mul_sum] at hle
  rw [div_eq_mul_inv]
  linarith

end LogSeries
