import Mathlib.Algebra.BigOperators.Group.Finset.Basic
import Mathlib.Algebra.Order.BigOperators.Group.Finset
import Mathlib.Algebra.Order.Ring.Nat

/-!
# Halving schedules

An amount that is cut in half every `interval` steps and stops after `cap` halvings. Whatever
steps are taken of it, it adds up to less than two intervals at the initial amount.

* `scheduled_antitone` — the amount never rises.
* `sum_scheduled_le` — distinct steps add up to at most `2 * interval * initial`.
-/

set_option autoImplicit false

namespace Halving

/-- The amount at step `i`. -/
def scheduled (initial interval cap i : ℕ) : ℕ :=
  if cap ≤ i / interval then 0 else initial >>> (i / interval)

variable {initial interval cap : ℕ}

theorem scheduled_le (i : ℕ) : scheduled initial interval cap i ≤ initial / 2 ^ (i / interval) := by
  unfold scheduled
  split
  · exact Nat.zero_le _
  · rw [Nat.shiftRight_eq_div_pow]

theorem scheduled_antitone {i j : ℕ} (hij : i ≤ j) :
    scheduled initial interval cap j ≤ scheduled initial interval cap i := by
  have hdiv : i / interval ≤ j / interval := Nat.div_le_div_right hij
  unfold scheduled
  split
  · exact Nat.zero_le _
  · rw [if_neg (by omega), Nat.shiftRight_eq_div_pow, Nat.shiftRight_eq_div_pow]
    exact Nat.div_le_div_left (Nat.pow_le_pow_right (by omega) hdiv) (Nat.two_pow_pos _)

/-- What is still to come after `k` intervals covers one more interval and what comes after it. -/
private theorem sum_intervals_le (hinterval : 0 < interval) (k : ℕ) :
    ∑ i ∈ Finset.range (interval * k), initial / 2 ^ (i / interval)
        + 2 * interval * (initial / 2 ^ k) ≤ 2 * interval * initial := by
  induction k with
  | zero => simp
  | succ k ih =>
      have hinner : ∀ j ∈ Finset.range interval,
          initial / 2 ^ ((interval * k + j) / interval) = initial / 2 ^ k := by
        intro j hj
        have hj' : j < interval := Finset.mem_range.mp hj
        rw [Nat.mul_add_div hinterval, Nat.div_eq_of_lt hj', Nat.add_zero]
      have hhalf : 2 * (initial / 2 ^ (k + 1)) ≤ initial / 2 ^ k := by
        rw [Nat.pow_succ, ← Nat.div_div_eq_div_mul]
        exact Nat.mul_div_le _ 2
      have hscaled : interval * (2 * (initial / 2 ^ (k + 1))) ≤ interval * (initial / 2 ^ k) :=
        Nat.mul_le_mul_left interval hhalf
      rw [Nat.mul_succ, Finset.sum_range_add, Finset.sum_congr rfl hinner, Finset.sum_const,
        Finset.card_range, Nat.nsmul_eq_mul]
      rw [← Nat.mul_assoc, Nat.mul_comm interval 2] at hscaled
      rw [Nat.mul_assoc 2 interval (initial / 2 ^ k)] at ih
      omega

theorem sum_range_scheduled_le (hinterval : 0 < interval) (n : ℕ) :
    ∑ i ∈ Finset.range n, scheduled initial interval cap i ≤ 2 * interval * initial := by
  have hsubset : Finset.range n ⊆ Finset.range (interval * n) :=
    Finset.range_subset_range.mpr (Nat.le_mul_of_pos_left n hinterval)
  calc ∑ i ∈ Finset.range n, scheduled initial interval cap i
      ≤ ∑ i ∈ Finset.range n, initial / 2 ^ (i / interval) :=
        Finset.sum_le_sum fun i _ => scheduled_le i
    _ ≤ ∑ i ∈ Finset.range (interval * n), initial / 2 ^ (i / interval) :=
        Finset.sum_le_sum_of_subset hsubset
    _ ≤ 2 * interval * initial := by
        have hall : ∑ i ∈ Finset.range (interval * n), initial / 2 ^ (i / interval)
            + 2 * interval * (initial / 2 ^ n) ≤ 2 * interval * initial :=
          sum_intervals_le hinterval n
        omega

/-- **Distinct steps of the schedule add up to at most two intervals at the initial amount.** -/
theorem sum_scheduled_le (hinterval : 0 < interval) {steps : List ℕ} (h : steps.Nodup) :
    (steps.map (scheduled initial interval cap)).sum ≤ 2 * interval * initial := by
  have hsubset : steps.toFinset ⊆ Finset.range (steps.sum + 1) := by
    intro i hi
    have hmem : i ∈ steps := List.mem_toFinset.mp hi
    have hle : i ≤ steps.sum := List.single_le_sum (fun _ _ => Nat.zero_le _) i hmem
    exact Finset.mem_range.mpr (by omega)
  calc (steps.map (scheduled initial interval cap)).sum
      = ∑ i ∈ steps.toFinset, scheduled initial interval cap i := (List.sum_toFinset _ h).symm
    _ ≤ ∑ i ∈ Finset.range (steps.sum + 1), scheduled initial interval cap i :=
        Finset.sum_le_sum_of_subset hsubset
    _ ≤ 2 * interval * initial := sum_range_scheduled_le hinterval _

end Halving
