import Mathlib.Algebra.BigOperators.Field
import Mathlib.Algebra.Order.BigOperators.Ring.Finset
import Mathlib.Algebra.Order.Field.Basic
import Mathlib.Data.Nat.Cast.Order.Field
import Mathlib.Tactic.FieldSimp
import Mathlib.Tactic.Linarith
import Mathlib.Tactic.Positivity
import Mathlib.Tactic.Ring

/-!
# Products that are rounded down at every step

A number is multiplied by one fraction after the other, and rounded down each time. The result is
below the exact product, by no more than a slack that grows by one at each step and is scaled by
the fraction of that step.

* `products_le`, `exact_le_add_slack` — the exact product, from both sides.
* `products_mono` — larger fractions give no smaller result.
* `slack_le` — fractions below one keep the slack below a constant.
-/

set_option autoImplicit false

namespace RoundedProducts

open Finset

/-- `m` times the first `n` of the fractions `a i / b i`, rounded down at each step. -/
def products (a b : ℕ → ℕ) (m : ℕ) : ℕ → ℕ
  | 0 => m
  | n + 1 => products a b m n * a n / b n

theorem products_zero (a b : ℕ → ℕ) (m : ℕ) : products a b m 0 = m := rfl

theorem products_succ (a b : ℕ → ℕ) (m n : ℕ) :
    products a b m (n + 1) = products a b m n * a n / b n := rfl

/-- A larger start and larger fractions. -/
theorem products_mono {a b a' b' : ℕ → ℕ} {m m' : ℕ} (hm : m ≤ m')
    (hb : ∀ i, 0 < b i) (hb' : ∀ i, 0 < b' i) (hab : ∀ i, a i * b' i ≤ a' i * b i) (n : ℕ) :
    products a b m n ≤ products a' b' m' n := by
  induction n with
  | zero => exact hm
  | succ n ih =>
      rw [products_succ, products_succ, Nat.le_div_iff_mul_le (hb' n)]
      have hfloor := Nat.div_mul_le_self (products a b m n * a n) (b n)
      refine Nat.le_of_mul_le_mul_right ?_ (hb n)
      calc products a b m n * a n / b n * b' n * b n
          = products a b m n * a n / b n * b n * b' n := by ring
        _ ≤ products a b m n * a n * b' n := Nat.mul_le_mul_right _ hfloor
        _ = products a b m n * (a n * b' n) := by ring
        _ ≤ products a' b' m' n * (a' n * b n) := Nat.mul_le_mul ih (hab n)
        _ = products a' b' m' n * a' n * b n := by ring

/-- Fractions of at most one never raise the product. -/
theorem products_antitone {a b : ℕ → ℕ} (m : ℕ) (hab : ∀ i, a i ≤ b i) {n n' : ℕ} (h : n ≤ n') :
    products a b m n' ≤ products a b m n := by
  induction h with
  | refl => exact le_refl _
  | @step k _ ih =>
      refine le_trans ?_ ih
      rw [products_succ]
      exact Nat.div_le_of_le_mul
        ((Nat.mul_le_mul_left _ (hab k)).trans_eq (Nat.mul_comm _ _))

section Exact

variable {K : Type*} [Field K] [LinearOrder K] [IsStrictOrderedRing K]

/-- By how much the rounding of `n` steps can lower the product. -/
def slack (r : ℕ → K) : ℕ → K
  | 0 => 0
  | n + 1 => slack r n * r n + 1

/-- Where every fraction is at most `ρ` and `c` is large enough to cover one step. -/
theorem slack_le {r : ℕ → K} {ρ c : K} (hr : ∀ i, 0 ≤ r i) (hρ : ∀ i, r i ≤ ρ) (hc : 0 ≤ c)
    (hstep : c * ρ + 1 ≤ c) (n : ℕ) : slack r n ≤ c := by
  induction n with
  | zero => exact hc
  | succ n ih =>
      have hmul : slack r n * r n ≤ c * ρ := mul_le_mul ih (hρ n) (hr n) hc
      show slack r n * r n + 1 ≤ c
      linarith

variable {a b : ℕ → ℕ} {m : ℕ}

/-- Rounding only lowers the product. -/
theorem products_le (n : ℕ) :
    (products a b m n : K) ≤ m * ∏ i ∈ range n, (a i / b i : K) := by
  induction n with
  | zero => simp [products_zero]
  | succ n ih =>
      have hr : (0 : K) ≤ a n / b n := by positivity
      calc (products a b m (n + 1) : K)
          ≤ ((products a b m n * a n : ℕ) : K) / b n := Nat.cast_div_le
        _ = products a b m n * (a n / b n) := by push_cast; ring
        _ ≤ m * (∏ i ∈ range n, (a i / b i : K)) * (a n / b n) := mul_le_mul_of_nonneg_right ih hr
        _ = m * ∏ i ∈ range (n + 1), (a i / b i : K) := by rw [prod_range_succ]; ring

/-- The quotient of natural numbers is above the exact one less one. -/
theorem div_lt_floor_add_one (x : ℕ) {y : ℕ} (hy : 0 < y) : (x : K) / y < (x / y : ℕ) + 1 := by
  rw [div_lt_iff₀ (by exact_mod_cast hy)]
  exact_mod_cast Nat.lt_mul_of_div_lt (Nat.lt_succ_self (x / y)) hy

/-- By no more than the slack. -/
theorem exact_le_add_slack (hb : ∀ i, 0 < b i) (n : ℕ) :
    (m * ∏ i ∈ range n, (a i / b i : K)) ≤
      products a b m n + slack (fun i => (a i / b i : K)) n := by
  induction n with
  | zero => simp [products_zero, slack]
  | succ n ih =>
      have hr : (0 : K) ≤ a n / b n := by positivity
      have hfloor := div_lt_floor_add_one (K := K) (products a b m n * a n) (hb n)
      calc (m * ∏ i ∈ range (n + 1), (a i / b i : K))
          = m * (∏ i ∈ range n, (a i / b i : K)) * (a n / b n) := by rw [prod_range_succ]; ring
        _ ≤ (products a b m n + slack (fun i => (a i / b i : K)) n) * (a n / b n) :=
            mul_le_mul_of_nonneg_right ih hr
        _ = ((products a b m n * a n : ℕ) : K) / b n
              + slack (fun i => (a i / b i : K)) n * (a n / b n) := by push_cast; ring
        _ ≤ products a b m (n + 1) + slack (fun i => (a i / b i : K)) (n + 1) := by
            show _ ≤ _ + (slack (fun i => (a i / b i : K)) n * (a n / b n) + 1)
            rw [products_succ]
            linarith

end Exact

end RoundedProducts
