import Mathlib
import Setheum.Lib.LogSeries
import Setheum.RewardCurve.Logarithm

/-!
# The logarithm of the reward curve and the real logarithm

The result of `log2` is below the logarithm of the fraction, in millionths, and by less than six and
a half: each of its six terms is rounded down once or twice, the terms after them are left out, and
the constant in front is rounded down. So it is within the six millionths that the tests of the
source allow on a grid of fractions, for every fraction.

* `log2_accurate` — the result and the real logarithm.
* `logarithm_antitone` — a smaller denominator gives no smaller result.
-/

set_option autoImplicit false

namespace Setheum.RewardCurve

open Checked RoundedProducts LogSeries Finset

/-! ## One term -/

/-- What a term is of which the source takes the integer part. -/
noncomputable def exactTerm (x : ℝ) (k : ℕ) : ℝ := twoDivLn2 * oddPower x k

theorem prod_powers (yNum yDen k : ℕ) :
    ∏ i ∈ range (k + 1), (powers yNum i / powers yDen i : ℝ)
      = ((yNum : ℝ) / yDen) ^ (2 * (k + 1) + 1) := by
  induction k with
  | zero => simp [powers, div_pow]
  | succ k ih =>
      rw [prod_range_succ, ih, powers, powers, if_neg (Nat.succ_ne_zero k),
        if_neg (Nat.succ_ne_zero k), Nat.cast_pow, Nat.cast_pow, ← div_pow, ← pow_add]
      ring

/-- Rounding down only lowers a term. -/
theorem term_le_exact (yNum yDen k : ℕ) :
    (term yNum yDen k : ℝ) ≤ exactTerm ((yNum : ℝ) / yDen) k := by
  rw [exactTerm, oddPower_eq]
  cases k with
  | zero =>
      refine Nat.cast_div_le.trans_eq ?_
      push_cast
      ring
  | succ k =>
      have hproducts := products_le (K := ℝ) (a := powers yNum) (b := powers yDen)
        (m := twoDivLn2) (k + 1)
      rw [prod_powers] at hproducts
      refine Nat.cast_div_le.trans ?_
      push_cast
      rw [mul_div_assoc']
      gcongr

/-- What rounding can take from a term. -/
noncomputable def loss (k : ℕ) : ℝ := (2 * k + 9 / 8) / (2 * k + 1)

/-- The powers of a fraction of at most a third lose at most nine eighths. -/
theorem slack_powers_le {yNum yDen : ℕ} (hpos : 0 < yDen) (hthird : 3 * yNum ≤ yDen) (n : ℕ) :
    slack (fun i => (powers yNum i / powers yDen i : ℝ)) n ≤ 9 / 8 := by
  have hden : (0 : ℝ) < yDen := by exact_mod_cast hpos
  have hx0 : (0 : ℝ) ≤ (yNum : ℝ) / yDen := by positivity
  have hx : (yNum : ℝ) / yDen ≤ 1 / 3 := by
    rw [div_le_iff₀ hden]
    have : (3 * yNum : ℝ) ≤ yDen := by exact_mod_cast hthird
    linarith
  have hsq : ((yNum : ℝ) / yDen) ^ 2 ≤ 1 / 9 := by nlinarith
  have hcube : ((yNum : ℝ) / yDen) ^ 3 ≤ 1 / 9 := by nlinarith [pow_nonneg hx0 2]
  refine slack_le (ρ := 1 / 9) (fun i => by positivity) (fun i => ?_) (by norm_num) (by norm_num) n
  unfold powers
  split
  · rwa [Nat.cast_pow, Nat.cast_pow, ← div_pow]
  · rwa [Nat.cast_pow, Nat.cast_pow, ← div_pow]

/-- And no more than a little over one in all. -/
theorem exact_le_term_add_loss {yNum yDen : ℕ} (hpos : 0 < yDen) (hthird : 3 * yNum ≤ yDen)
    (k : ℕ) : exactTerm ((yNum : ℝ) / yDen) k ≤ term yNum yDen k + loss k := by
  rw [exactTerm, oddPower_eq]
  unfold loss
  cases k with
  | zero =>
      have hfloor := div_lt_floor_add_one (K := ℝ) (twoDivLn2 * yNum) hpos
      push_cast at hfloor
      have hterm : (term yNum yDen 0 : ℝ) = (twoDivLn2 * yNum / yDen : ℕ) := rfl
      rw [hterm]
      have hexact : (twoDivLn2 : ℝ) * (((yNum : ℝ) / yDen) ^ (2 * 0 + 1) / (2 * (0 : ℕ) + 1))
          = twoDivLn2 * yNum / yDen := by
        push_cast
        ring
      rw [hexact]
      push_cast
      linarith
  | succ k =>
      have hproducts := exact_le_add_slack (K := ℝ) (a := powers yNum) (b := powers yDen)
        (m := twoDivLn2) (powers_pos hpos) (k + 1)
      rw [prod_powers] at hproducts
      have hslack := slack_powers_le hpos hthird (k + 1)
      set power := products (powers yNum) (powers yDen) twoDivLn2 (k + 1) with hpower
      have hdivided : power ≤ (2 * (k + 1) + 1) * term yNum yDen (k + 1) + 2 * (k + 1) := by
        show power ≤ (2 * (k + 1) + 1) * (power / (2 * (k + 1) + 1)) + 2 * (k + 1)
        have hmod := Nat.div_add_mod power (2 * (k + 1) + 1)
        have hlt := Nat.mod_lt power (show 0 < 2 * (k + 1) + 1 by omega)
        omega
      have hdivided' : (power : ℝ)
          ≤ (2 * (k + 1 : ℕ) + 1) * term yNum yDen (k + 1) + 2 * (k + 1 : ℕ) := by
        exact_mod_cast hdivided
      rw [mul_div_assoc', div_le_iff₀ (by positivity), add_mul,
        div_mul_cancel₀ _ (by positivity)]
      linarith

/-! ## The sum -/

/-- `2 / ln 2` in millionths. -/
noncomputable def scale : ℝ := 1000000 * (2 / Real.log 2)

theorem twoDivLn2_le_scale : (twoDivLn2 : ℝ) ≤ scale := by
  have hlog := Real.log_two_lt_d9
  have hpos : 0 < Real.log 2 := Real.log_pos one_lt_two
  unfold scale twoDivLn2
  rw [mul_div_assoc', le_div_iff₀ hpos]
  push_cast
  linarith

theorem scale_le : scale ≤ twoDivLn2 + 9 / 100 := by
  have hlog := Real.log_two_gt_d9
  have hpos : 0 < Real.log 2 := Real.log_pos one_lt_two
  unfold scale twoDivLn2
  rw [mul_div_assoc', div_le_iff₀ hpos]
  push_cast
  linarith

/-- Six terms lose less than six and a quarter. -/
theorem sum_loss_le : ∑ k ∈ range 6, loss k ≤ 25 / 4 := by
  simp only [sum_range_succ, sum_range_zero, loss]
  norm_num

section Sum

variable {yNum yDen : ℕ}

theorem sumOfTerms_le_scaled (n : ℕ) :
    (sumOfTerms yNum yDen n : ℝ) ≤ scale * ∑ k ∈ range n, oddPower ((yNum : ℝ) / yDen) k := by
  have hsum : (sumOfTerms yNum yDen n : ℝ)
      ≤ ∑ k ∈ range n, exactTerm ((yNum : ℝ) / yDen) k := by
    unfold sumOfTerms
    push_cast
    exact sum_le_sum fun k _ => term_le_exact yNum yDen k
  have hpos : 0 ≤ ∑ k ∈ range n, oddPower ((yNum : ℝ) / yDen) k :=
    sum_nonneg fun k _ => oddPower_nonneg (by positivity) k
  unfold exactTerm at hsum
  rw [← mul_sum] at hsum
  exact hsum.trans (mul_le_mul_of_nonneg_right twoDivLn2_le_scale hpos)

/-- **What is lost of the logarithm of a fraction between one and two.** -/
theorem sumOfTerms_near (hpos : 0 < yDen) (hthird : 3 * yNum ≤ yDen) :
    (sumOfTerms yNum yDen 6 : ℝ) ≤ scale / 2 * logRatio ((yNum : ℝ) / yDen) ∧
      scale / 2 * logRatio ((yNum : ℝ) / yDen) < sumOfTerms yNum yDen 6 + 13 / 2 := by
  have hden : (0 : ℝ) < yDen := by exact_mod_cast hpos
  set x : ℝ := (yNum : ℝ) / yDen with hxdef
  have hx0 : 0 ≤ x := by positivity
  have hx : x ≤ 1 / 3 := by
    rw [hxdef, div_le_iff₀ hden]
    have : (3 * yNum : ℝ) ≤ yDen := by exact_mod_cast hthird
    linarith
  have hscale := twoDivLn2_le_scale
  have hscale' := scale_le
  have hc : (twoDivLn2 : ℝ) = 2885390 := by norm_num [twoDivLn2]
  have hsum0 : 0 ≤ ∑ k ∈ range 6, oddPower x k := sum_nonneg fun k _ => oddPower_nonneg hx0 k
  constructor
  · have hlow := sum_le_log hx0 (by linarith) 6
    have hterms := @sumOfTerms_le_scaled yNum yDen 6
    rw [← hxdef] at hterms
    have hmul := mul_le_mul_of_nonneg_left hlow (show (0 : ℝ) ≤ scale / 2 by linarith)
    linarith
  · have hhigh := log_le_sum_add_tail hx0 (by linarith) 6
    have hexact : (twoDivLn2 : ℝ) * ∑ k ∈ range 6, oddPower x k
        ≤ sumOfTerms yNum yDen 6 + 25 / 4 := by
      have hle := sum_le_sum fun k (_ : k ∈ range 6) => exact_le_term_add_loss hpos hthird k
      rw [sum_add_distrib] at hle
      have hloss := sum_loss_le
      unfold exactTerm at hle
      rw [← mul_sum, ← hxdef] at hle
      unfold sumOfTerms
      push_cast
      linarith
    -- the terms that are summed are below those of a third, and so is what comes after them
    have hsum : ∑ k ∈ range 6, oddPower x k ≤ 7 / 20 := by
      have hmono := sum_le_sum fun k (_ : k ∈ range 6) => oddPower_mono hx0 hx k
      refine hmono.trans ?_
      simp only [sum_range_succ, sum_range_zero, oddPower_eq]
      norm_num
    have htail : oddPower x 6 / (1 - x ^ 2) ≤ 6 / 100000000 := by
      have hsq : x ^ 2 ≤ 1 / 9 := by nlinarith
      have hpower : oddPower x 6 ≤ 5 / 100000000 := by
        refine (oddPower_mono hx0 hx 6).trans ?_
        norm_num [oddPower_eq]
      rw [div_le_iff₀ (by linarith)]
      nlinarith
    have hscaled : scale * ∑ k ∈ range 6, oddPower x k
        ≤ twoDivLn2 * ∑ k ∈ range 6, oddPower x k + 9 / 100 * (7 / 20) := by nlinarith
    have htailed : scale * (oddPower x 6 / (1 - x ^ 2)) ≤ 2885391 * (6 / 100000000) := by
      have htail0 : 0 ≤ oddPower x 6 / (1 - x ^ 2) :=
        div_nonneg (oddPower_nonneg hx0 6) (by nlinarith)
      nlinarith
    have hmul := mul_le_mul_of_nonneg_left hhigh (show (0 : ℝ) ≤ scale / 2 by linarith)
    linarith

end Sum

/-! ## The logarithm -/

/-- The logarithm of a fraction in millionths. -/
noncomputable def realLog (p q : ℕ) : ℝ := 1000000 * Real.logb 2 ((p : ℝ) / q)

/-- The exponent and the series make up the logarithm. -/
theorem realLog_eq {p q n : ℕ} (hq : 0 < q) (hn : IsExponent p q n) :
    realLog p q = n * 1000000
      + scale / 2 * logRatio (((p - 2 ^ n * q : ℕ) : ℝ) / (p + 2 ^ n * q : ℕ)) := by
  have hq' : (0 : ℝ) < q := by exact_mod_cast hq
  have hscaled : (0 : ℝ) < 2 ^ n * q := by positivity
  have hp : (0 : ℝ) < p := lt_of_lt_of_le hscaled (by exact_mod_cast hn.1)
  have hlog : Real.log 2 ≠ 0 := (Real.log_pos one_lt_two).ne'
  have hsum : (p : ℝ) + 2 ^ n * q ≠ 0 := (add_pos hp hscaled).ne'
  have hratio : logRatio (((p - 2 ^ n * q : ℕ) : ℝ) / (p + 2 ^ n * q : ℕ))
      = Real.log p - Real.log (2 ^ n * q) := by
    unfold logRatio
    rw [Nat.cast_sub hn.1]
    push_cast
    have hnum : 1 + ((p : ℝ) - 2 ^ n * q) / (p + 2 ^ n * q) = 2 * p / (p + 2 ^ n * q) := by
      field_simp
      ring
    have hden : 1 - ((p : ℝ) - 2 ^ n * q) / (p + 2 ^ n * q)
        = 2 * (2 ^ n * q) / (p + 2 ^ n * q) := by
      field_simp
      ring
    rw [hnum, hden, Real.log_div (by positivity) hsum, Real.log_div (by positivity) hsum,
      Real.log_mul two_ne_zero hp.ne', Real.log_mul two_ne_zero hscaled.ne']
    ring
  rw [hratio, Real.log_mul (by positivity) hq'.ne', Real.log_pow, realLog, scale, Real.logb,
    Real.log_div hp.ne' hq'.ne']
  field_simp
  ring

/-- The value of `log2` and the real logarithm. -/
theorem logarithm_near {p q n : ℕ} (hq : 0 < q) (hn : IsExponent p q n) :
    (logarithm p q n : ℝ) ≤ realLog p q ∧ realLog p q < logarithm p q n + 13 / 2 := by
  have hnear := @sumOfTerms_near (p - 2 ^ n * q) (p + 2 ^ n * q)
    (by have := hn.1; have := Nat.mul_pos (Nat.two_pow_pos n) hq; omega) hn.third
  rw [realLog_eq hq hn, logarithm]
  push_cast at hnear ⊢
  constructor <;> linarith [hnear.1, hnear.2]

/-- **For all numbers up to a million, `log2` of a fraction of at least one is the logarithm to
within six and a half millionths, never above it, and to within the six of its tests when that is
rounded.** -/
theorem log2_accurate (b : Build) {p q : ℕ} (hq : 0 < q) (hle : q ≤ p) (hp : p ≤ 1000000) :
    ∃ r : ℕ, log2 b p q = .ok r ∧ (r : ℝ) ≤ realLog p q ∧ realLog p q < r + 13 / 2 ∧
      |(r : ℤ) - round (realLog p q)| ≤ 6 := by
  have hn := isExponent_exponent hq hle
  set n := exponent p q
  obtain ⟨hlow, hhigh⟩ := logarithm_near hq hn
  refine ⟨logarithm p q n, log2_eq hq hle hp hn, hlow, hhigh, ?_⟩
  rw [round_eq, abs_le]
  have hfloor : (logarithm p q n : ℤ) ≤ ⌊realLog p q + 1 / 2⌋ := by
    rw [Int.le_floor]
    push_cast
    linarith
  have hceil : ⌊realLog p q + 1 / 2⌋ < (logarithm p q n : ℤ) + 7 := by
    rw [Int.floor_lt]
    push_cast
    linarith
  constructor <;> omega

theorem log2_accurate_thousandth :
    ∃ r : ℕ, log2 hostDebug 1000000 1000 = .ok r ∧ (r : ℝ) ≤ realLog 1000000 1000 ∧
      realLog 1000000 1000 < r + 13 / 2 ∧ |(r : ℤ) - round (realLog 1000000 1000)| ≤ 6 :=
  log2_accurate hostDebug (by decide) (by decide) (by decide)

/-- A smaller denominator gives no smaller result. -/
theorem logarithm_antitone {p q q' n n' : ℕ} (hq' : 0 < q') (h : q' ≤ q)
    (hn : IsExponent p q n) (hn' : IsExponent p q' n') : logarithm p q n ≤ logarithm p q' n' := by
  have hq : 0 < q := by omega
  rcases lt_trichotomy n n' with hlt | rfl | hgt
  · -- the whole part of the result grows by more than the terms can take away
    have hreal : (logarithm p q n : ℝ) < (n' * 1000000 : ℕ) := by
      refine lt_of_le_of_lt (logarithm_near hq hn).1 ?_
      have hlog : Real.logb 2 ((p : ℝ) / q) < n' := by
        have hq'' : (0 : ℝ) < q := by exact_mod_cast hq
        have hp : (0 : ℝ) < p := by
          have := hn.1
          have := Nat.mul_pos (Nat.two_pow_pos n) hq
          exact_mod_cast (by omega : 0 < p)
        rw [Real.logb_lt_iff_lt_rpow one_lt_two (by positivity), Real.rpow_natCast,
          div_lt_iff₀ hq'']
        have hpow : 2 ^ (n + 1) * q ≤ 2 ^ n' * q :=
          Nat.mul_le_mul_right q (Nat.pow_le_pow_right (by decide) hlt)
        exact_mod_cast lt_of_lt_of_le hn.2 hpow
      unfold realLog
      push_cast
      linarith
    have hnat : logarithm p q n < n' * 1000000 := by exact_mod_cast hreal
    unfold logarithm at hnat ⊢
    omega
  · have hpos : 0 < 2 ^ n * q' := Nat.mul_pos (Nat.two_pow_pos n) hq'
    have hle : 2 ^ n * q' ≤ 2 ^ n * q := Nat.mul_le_mul_left _ h
    refine Nat.add_le_add_left (sum_le_sum fun k _ => term_mono (by omega) (by omega) ?_ k) _
    have hcross : ∀ {p s s' : ℕ}, s' ≤ s → s ≤ p → (p - s) * (p + s') ≤ (p - s') * (p + s) := by
      intro p s s' hs hp
      obtain ⟨d, rfl⟩ := Nat.exists_eq_add_of_le hs
      obtain ⟨e, rfl⟩ := Nat.exists_eq_add_of_le hp
      rw [show s' + d + e - (s' + d) = e by omega, show s' + d + e - s' = d + e by omega]
      nlinarith
    exact hcross hle hn.1
  · have hpow : 2 ^ (n' + 1) * q' ≤ 2 ^ n * q :=
      Nat.mul_le_mul (Nat.pow_le_pow_right (by decide) hgt) h
    exact absurd hn'.2 (by have := hn.1; omega)

end Setheum.RewardCurve
