import Mathlib.Data.Nat.Log
import Setheum.Lib.Checked
import Setheum.Lib.RoundedProducts

/-!
# The logarithm of the reward curve

`log2` of the reward curve takes the binary logarithm of a fraction in millionths: the largest
power of two is divided out, and what is left is a Taylor series whose terms are rounded down. An
assertion that fails and a conversion that does not fit are panics; an overflow is one if the
program was built with overflow checks.

* `log2_eq` — for a fraction of at least one the result exists, and is the exponent and six terms.
* `findExponent_eq` — the search finds the exponent.
* `term_mono` — a larger fraction has larger terms.

The intermediate values of a term have 128 bits in the source. By `term_fits` that is enough for
every fraction that `log2` passes on, so they are natural numbers here.
-/

set_option autoImplicit false

namespace Setheum.RewardCurve

open Checked RoundedProducts

/-- A loop was not given enough steps to finish. -/
inductive Unfinished
  | unfinished
  deriving DecidableEq, Repr

/-- A value, or a panic, or a loop that has not finished. -/
abbrev Runs := Checked Unfinished

/-- The macro as part of a debug build. -/
def hostDebug : Build := ⟨64, by decide, true⟩

/-- One more than the largest `u32`. -/
def u32Size : ℕ := 2 ^ 32

def asserted (p : Prop) [Decidable p] : Runs Unit := if p then .ok () else panicked

/-- `try_into().unwrap()` into 32 bits. -/
def intoU32 (n : ℕ) : Runs ℕ := if n < u32Size then .ok n else panicked

/-- `1_u32 << n`, where the width of a shift may overflow as well. -/
def pow2 (b : Build) (n : ℕ) : Runs ℕ :=
  if n < 32 then .ok (2 ^ n)
  else if b.overflowChecks then panicked else .ok (2 ^ (n % 32))

/-- `2 / ln 2` in millionths, rounded down. -/
def twoDivLn2 : ℕ := 2885390

/-- The power of the fraction in the term `j + 1`. -/
def taylorPower (yNum yDen : ℕ) : ℕ → Runs ℕ
  | 0 => div (twoDivLn2 * yNum ^ 3) (yDen ^ 3)
  | j + 1 => do
      let res ← taylorPower yNum yDen j
      div (res * yNum ^ 2) (yDen ^ 2)

/-- A Taylor term of the logarithm, in millionths. -/
def taylorTerm (yNum yDen : ℕ) : ℕ → Runs ℕ
  | 0 => do
      let res ← div (twoDivLn2 * yNum) yDen
      intoU32 res
  | k + 1 => do
      let res ← taylorPower yNum yDen k
      intoU32 (res / (2 * (k + 1) + 1))

/-- Find the `n` with `q * 2 ^ n ≤ p < q * 2 ^ (n + 1)`; it is asserted to be less than 32, which is
what the number of steps left stands for. -/
def findExponent (b : Build) (p q : ℕ) : ℕ → ℕ → Runs ℕ
  | 0, _ => panicked
  | left + 1, n => do
      let low ← b.mul u32Size (← pow2 b n) q
      if low ≤ p then
        let high ← b.mul u32Size (← pow2 b (n + 1)) q
        if p < high then return n
      findExponent b p q left (n + 1)

/-- Add the terms from `k` on, up to the first that is zero. -/
def addTerms (b : Build) (yNum yDen : ℕ) : ℕ → ℕ → ℕ → Runs ℕ
  | 0, _, _ => fail .unfinished
  | fuel + 1, k, res => do
      let term ← taylorTerm yNum yDen k
      if term = 0 then return res
      let res ← b.add u32Size res term
      addTerms b yNum yDen fuel (k + 1) res

/-- Steps enough for the terms of any fraction: by `addTerms_eq` seven are. -/
def termFuel : ℕ := 32

/-- `log2(p / q)` in millionths. -/
def log2 (b : Build) (p q : ℕ) : Runs ℕ := do
  asserted (q ≤ p)
  asserted (p ≤ (u32Size - 1) / 2)
  asserted (p ≤ 1000000)
  asserted (q ≤ 1000000)
  if p = q then return 0
  let n ← findExponent b p q 32 0
  let high ← b.mul u32Size (← pow2 b (n + 1)) q
  asserted (p < high)
  let scaled ← b.mul u32Size (← pow2 b n) q
  let yNum ← b.sub u32Size p scaled
  let yDen ← b.add u32Size p scaled
  let res ← b.mul u32Size n 1000000
  addTerms b yNum yDen termFuel 0 res

/-! ## Terms -/

/-- The numerators of the fractions that a term multiplies; the first of them is a cube. -/
def powers (y : ℕ) (i : ℕ) : ℕ := if i = 0 then y ^ 3 else y ^ 2

theorem powers_pos {y : ℕ} (hy : 0 < y) (i : ℕ) : 0 < powers y i := by
  unfold powers
  split <;> positivity

theorem powers_mono {y y' : ℕ} (h : y ≤ y') (i : ℕ) : powers y i ≤ powers y' i := by
  unfold powers
  split <;> exact Nat.pow_le_pow_left h _

/-- The value of a Taylor term. -/
def term (yNum yDen : ℕ) : ℕ → ℕ
  | 0 => twoDivLn2 * yNum / yDen
  | k + 1 => products (powers yNum) (powers yDen) twoDivLn2 (k + 1) / (2 * (k + 1) + 1)

theorem taylorPower_eq {yNum yDen : ℕ} (hpos : 0 < yDen) (j : ℕ) :
    taylorPower yNum yDen j
      = .ok (products (powers yNum) (powers yDen) twoDivLn2 (j + 1)) := by
  induction j with
  | zero => exact if_neg (pow_ne_zero _ hpos.ne')
  | succ j ih =>
      rw [taylorPower, ih, ok_bind, products_succ _ _ _ (j + 1), powers, if_neg (Nat.succ_ne_zero j), powers,
        if_neg (Nat.succ_ne_zero j)]
      exact if_neg (pow_ne_zero _ hpos.ne')

/-- A power of a fraction of at most one is at most the factor in front. -/
theorem power_le {yNum yDen : ℕ} (h : yNum ≤ yDen) (n : ℕ) :
    products (powers yNum) (powers yDen) twoDivLn2 n ≤ twoDivLn2 :=
  products_antitone twoDivLn2 (powers_mono h) (Nat.zero_le n)

theorem term_le {yNum yDen : ℕ} (h : yNum ≤ yDen) (k : ℕ) : term yNum yDen k ≤ twoDivLn2 := by
  cases k with
  | zero =>
      exact Nat.div_le_of_le_mul ((Nat.mul_le_mul_left _ h).trans_eq (Nat.mul_comm _ _))
  | succ k => exact (Nat.div_le_self _ _).trans (power_le h _)

/-- 128 bits hold what a term is computed from. -/
theorem term_fits {yNum yDen : ℕ} (h : yNum ≤ yDen) (hden : yDen ≤ 2000000) (n : ℕ) :
    twoDivLn2 * yNum ^ 3 < 2 ^ 128 ∧ yDen ^ 3 < 2 ^ 128 ∧
      products (powers yNum) (powers yDen) twoDivLn2 n * yNum ^ 2 < 2 ^ 128 := by
  have hcube : yDen ^ 3 ≤ 2000000 ^ 3 := Nat.pow_le_pow_left hden 3
  have hcube' : yNum ^ 3 ≤ 2000000 ^ 3 := Nat.pow_le_pow_left (h.trans hden) 3
  have hsquare : yNum ^ 2 ≤ 2000000 ^ 2 := Nat.pow_le_pow_left (h.trans hden) 2
  have hmul := Nat.mul_le_mul (power_le h n) hsquare
  unfold twoDivLn2 at *
  omega

theorem taylorTerm_eq {yNum yDen : ℕ} (hpos : 0 < yDen) (h : yNum ≤ yDen) (k : ℕ) :
    taylorTerm yNum yDen k = .ok (term yNum yDen k) := by
  have hfits : term yNum yDen k < u32Size :=
    lt_of_le_of_lt (term_le h k) (by decide)
  cases k with
  | zero =>
      rw [taylorTerm, div, if_neg hpos.ne', ok_bind]
      exact if_pos hfits
  | succ k =>
      rw [taylorTerm, taylorPower_eq hpos, ok_bind]
      exact if_pos hfits

/-- A larger fraction has larger terms. -/
theorem term_mono {yNum yDen yNum' yDen' : ℕ} (hpos : 0 < yDen) (hpos' : 0 < yDen')
    (h : yNum * yDen' ≤ yNum' * yDen) (k : ℕ) : term yNum yDen k ≤ term yNum' yDen' k := by
  cases k with
  | zero =>
      have hmono := products_mono (m := twoDivLn2) (a := fun _ => yNum) (b := fun _ => yDen)
        (le_refl _) (fun _ => hpos) (fun _ => hpos') (fun _ => h) 1
      exact hmono
  | succ k =>
      refine Nat.div_le_div_right (products_mono (le_refl _) (powers_pos hpos) (powers_pos hpos')
        (fun i => ?_) (k + 1))
      unfold powers
      split <;> rw [← Nat.mul_pow, ← Nat.mul_pow] <;> exact Nat.pow_le_pow_left h _

/-- The terms after the sixth are zero for a fraction of at most a third. -/
theorem term_eq_zero {yNum yDen : ℕ} (hpos : 0 < yDen) (hthird : 3 * yNum ≤ yDen) :
    term yNum yDen 6 = 0 := by
  have hmono := term_mono hpos (by decide : 0 < 3) (show yNum * 3 ≤ 1 * yDen by omega) 6
  have hthird : term 1 3 6 = 0 := by decide
  omega

/-- After a term that is zero all others are. -/
theorem term_eq_zero_of_le {yNum yDen k k' : ℕ} (h : yNum ≤ yDen) (hzero : term yNum yDen k = 0)
    (hk : k ≤ k') : term yNum yDen k' = 0 := by
  induction hk with
  | refl => exact hzero
  | @step k' _ ih =>
      cases k' with
      | zero =>
          have hterm : products (powers yNum) (powers yDen) twoDivLn2 1 ≤ term yNum yDen 0 := by
            rcases Nat.eq_zero_or_pos yDen with rfl | hpos
            · simp [products, powers]
            · show twoDivLn2 * yNum ^ 3 / yDen ^ 3 ≤ twoDivLn2 * yNum / yDen
              rw [Nat.le_div_iff_mul_le hpos]
              refine Nat.le_of_mul_le_mul_right ?_ (pow_pos hpos 2)
              calc twoDivLn2 * yNum ^ 3 / yDen ^ 3 * yDen * yDen ^ 2
                  = twoDivLn2 * yNum ^ 3 / yDen ^ 3 * yDen ^ 3 := by ring
                _ ≤ twoDivLn2 * yNum ^ 3 := Nat.div_mul_le_self _ _
                _ = twoDivLn2 * yNum * yNum ^ 2 := by ring
                _ ≤ twoDivLn2 * yNum * yDen ^ 2 :=
                    Nat.mul_le_mul_left _ (Nat.pow_le_pow_left h 2)
          have hpower : products (powers yNum) (powers yDen) twoDivLn2 1 = 0 := by omega
          show products (powers yNum) (powers yDen) twoDivLn2 (0 + 1) / _ = 0
          rw [Nat.zero_add, hpower, Nat.zero_div]
      | succ j =>
          have hpower := products_antitone twoDivLn2 (powers_mono h)
            (show j + 1 ≤ j + 1 + 1 by omega)
          have hsmall : products (powers yNum) (powers yDen) twoDivLn2 (j + 1)
              < 2 * (j + 1) + 1 :=
            (Nat.div_eq_zero_iff_lt (by omega)).mp ih
          exact Nat.div_eq_of_lt (by omega)

/-- What a prefix of the terms adds up to. -/
def sumOfTerms (yNum yDen n : ℕ) : ℕ := ∑ k ∈ Finset.range n, term yNum yDen k

theorem sumOfTerms_zero (yNum yDen : ℕ) : sumOfTerms yNum yDen 0 = 0 := rfl

theorem sumOfTerms_le {yNum yDen : ℕ} (h : yNum ≤ yDen) (n : ℕ) :
    sumOfTerms yNum yDen n ≤ n * twoDivLn2 := by
  have hsum := Finset.sum_le_card_nsmul (Finset.range n) (term yNum yDen) twoDivLn2
    fun k _ => term_le h k
  rwa [Finset.card_range, nsmul_eq_mul, Nat.cast_id] at hsum

/-- Once a term is zero the sum stays. -/
theorem sumOfTerms_eq_of_zero {yNum yDen k n : ℕ} (h : yNum ≤ yDen)
    (hzero : term yNum yDen k = 0) (hk : k ≤ n) :
    sumOfTerms yNum yDen n = sumOfTerms yNum yDen k := by
  induction hk with
  | refl => rfl
  | @step n hn ih =>
      rw [sumOfTerms, Finset.sum_range_succ, term_eq_zero_of_le h hzero hn]
      exact ih

/-- The loop adds six terms, however many more steps it is given. -/
theorem addTerms_eq {b : Build} {yNum yDen : ℕ} (hpos : 0 < yDen) (hthird : 3 * yNum ≤ yDen)
    (left k : ℕ) (hk : k + left = 6) (fuel res : ℕ) (hfuel : left < fuel)
    (hres : res ≤ 20000000 + sumOfTerms yNum yDen k) (hsum : sumOfTerms yNum yDen k ≤ res) :
    addTerms b yNum yDen fuel k res
      = .ok (res - sumOfTerms yNum yDen k + sumOfTerms yNum yDen 6) := by
  have hle : yNum ≤ yDen := by omega
  induction left generalizing k fuel res with
  | zero =>
      obtain ⟨fuel, rfl⟩ : ∃ f, fuel = f + 1 := ⟨fuel - 1, by omega⟩
      obtain rfl : k = 6 := by omega
      rw [addTerms, taylorTerm_eq hpos hle, ok_bind, if_pos (term_eq_zero hpos hthird),
        Nat.sub_add_cancel hsum]
      rfl
  | succ left ih =>
      obtain ⟨fuel, rfl⟩ : ∃ f, fuel = f + 1 := ⟨fuel - 1, by omega⟩
      rw [addTerms, taylorTerm_eq hpos hle, ok_bind]
      have hnext : sumOfTerms yNum yDen (k + 1)
          = sumOfTerms yNum yDen k + term yNum yDen k := Finset.sum_range_succ _ _
      have hterm := term_le hle k
      have hprefix := sumOfTerms_le hle k
      by_cases hzero : term yNum yDen k = 0
      · rw [if_pos hzero, sumOfTerms_eq_of_zero hle hzero (by omega : k ≤ 6),
          Nat.sub_add_cancel hsum]
        rfl
      · rw [if_neg hzero]
        have hbound : k * twoDivLn2 ≤ 6 * twoDivLn2 := Nat.mul_le_mul_right _ (by omega)
        have hfits : res + term yNum yDen k < u32Size := by
          unfold twoDivLn2 u32Size at *
          omega
        rw [Build.add, Build.fit_of_lt hfits, ok_bind,
          ih (k + 1) (by omega) fuel (res + term yNum yDen k) (by omega) (by omega) (by omega),
          hnext, Nat.add_sub_add_right]

/-! ## The exponent -/

/-- `n` is the exponent of `p / q`. -/
def IsExponent (p q n : ℕ) : Prop := 2 ^ n * q ≤ p ∧ p < 2 ^ (n + 1) * q

/-- The exponent, where there is one. -/
def exponent (p q : ℕ) : ℕ := Nat.log 2 (p / q)

theorem isExponent_exponent {p q : ℕ} (hq : 0 < q) (h : q ≤ p) :
    IsExponent p q (exponent p q) := by
  unfold exponent
  constructor
  · have hpow := Nat.pow_log_le_self 2 (Nat.div_pos h hq).ne'
    exact (Nat.le_div_iff_mul_le hq).mp hpow
  · have hpow := Nat.lt_pow_succ_log_self (by decide : 1 < 2) (p / q)
    exact (Nat.div_lt_iff_lt_mul hq).mp hpow

/-- The exponent of a fraction of numbers up to a million. -/
theorem IsExponent.lt_twenty {p q n : ℕ} (h : IsExponent p q n) (hq : 0 < q)
    (hp : p ≤ 1000000) : n < 20 := by
  by_contra hn
  have hpow : 2 ^ 20 ≤ 2 ^ n := Nat.pow_le_pow_right (by decide) (by omega)
  have hmul : 2 ^ n * 1 ≤ 2 ^ n * q := Nat.mul_le_mul_left _ hq
  have := h.1
  omega

/-- Twice a smaller number is half the next. -/
theorem IsExponent.unique {p q n n' : ℕ} (h : IsExponent p q n) (h' : IsExponent p q n') :
    n = n' := by
  have hle : ∀ {m m' : ℕ}, IsExponent p q m → IsExponent p q m' → m ≤ m' := by
    intro m m' hm hm'
    by_contra hlt
    have hpow : 2 ^ (m' + 1) ≤ 2 ^ m := Nat.pow_le_pow_right (by decide) (by omega)
    have hmul := Nat.mul_le_mul_right q hpow
    have hlow := hm.1
    have hhigh := hm'.2
    omega
  exact le_antisymm (hle h h') (hle h' h)

theorem pow2_of_lt {b : Build} {n : ℕ} (h : n < 32) : pow2 b n = .ok (2 ^ n) := if_pos h

/-- The search, from an exponent that is not too large, finds the one it looks for. -/
theorem findExponent_eq {b : Build} {p q n : ℕ} (hq : 0 < q) (hp : p ≤ 1000000)
    (hn : IsExponent p q n) (left m : ℕ) (hm : m ≤ n) (hleft : n < m + left) :
    findExponent b p q left m = .ok n := by
  have hsmall := hn.lt_twenty hq hp
  induction left generalizing m with
  | zero => omega
  | succ left ih =>
      have hpow : 2 ^ m * q ≤ 2 ^ n * q :=
        Nat.mul_le_mul_right q (Nat.pow_le_pow_right (by decide) hm)
      have hlow : 2 ^ m * q ≤ p := hpow.trans hn.1
      have htwice : 2 ^ (m + 1) * q = 2 * (2 ^ m * q) := by ring
      have hfits : 2 ^ m * q < u32Size := by unfold u32Size; omega
      have hfits' : 2 ^ (m + 1) * q < u32Size := by unfold u32Size; omega
      rw [findExponent, pow2_of_lt (by omega), ok_bind, Build.mul, Build.fit_of_lt hfits, ok_bind,
        if_pos hlow, pow2_of_lt (by omega), ok_bind, Build.mul, Build.fit_of_lt hfits', ok_bind]
      by_cases hhigh : p < 2 ^ (m + 1) * q
      · rw [if_pos hhigh, hn.unique ⟨hlow, hhigh⟩]
        rfl
      · rw [if_neg hhigh]
        have hne : m ≠ n := fun heq => hhigh (heq ▸ hn.2)
        exact ih (m + 1) (by omega) (by omega)

/-! ## The logarithm -/

/-- What `log2` returns for a fraction with the exponent `n`. -/
def logarithm (p q n : ℕ) : ℕ := n * 1000000 + sumOfTerms (p - 2 ^ n * q) (p + 2 ^ n * q) 6

/-- What is left of a fraction without its exponent is at most a third. -/
theorem IsExponent.third {p q n : ℕ} (h : IsExponent p q n) :
    3 * (p - 2 ^ n * q) ≤ p + 2 ^ n * q := by
  have htwice : 2 ^ (n + 1) * q = 2 * (2 ^ n * q) := by ring
  have hlow := h.1
  have hhigh := h.2
  omega

/-- **For numbers up to a million, the logarithm of a fraction of at least one exists.** -/
theorem log2_eq {b : Build} {p q n : ℕ} (hq : 0 < q) (hle : q ≤ p) (hp : p ≤ 1000000)
    (hn : IsExponent p q n) : log2 b p q = .ok (logarithm p q n) := by
  have hsmall := hn.lt_twenty hq hp
  have htwice : 2 ^ (n + 1) * q = 2 * (2 ^ n * q) := by ring
  have hlow := hn.1
  have hmax : p ≤ (u32Size - 1) / 2 := by
    unfold u32Size
    omega
  have hasserts : log2 b p q = (if p = q then pure 0 else
      findExponent b p q 32 0 >>= fun n => pow2 b (n + 1) >>= fun two =>
        b.mul u32Size two q >>= fun high => asserted (p < high) >>= fun _ =>
        pow2 b n >>= fun one => b.mul u32Size one q >>= fun scaled =>
        b.sub u32Size p scaled >>= fun yNum => b.add u32Size p scaled >>= fun yDen =>
        b.mul u32Size n 1000000 >>= fun res => addTerms b yNum yDen termFuel 0 res : Runs ℕ) := by
    rw [log2, asserted, if_pos hle, asserted, if_pos hmax, asserted, if_pos hp, asserted,
      if_pos (hle.trans hp)]
    rfl
  rw [hasserts]
  by_cases heq : p = q
  · subst heq
    obtain rfl : n = 0 := hn.unique ⟨by simp, by simp; omega⟩
    rw [if_pos rfl, logarithm, pow_zero, Nat.one_mul, Nat.sub_self, sumOfTerms,
      Finset.sum_eq_zero fun k _ => ?_]
    · rfl
    · have hzero : term 0 (p + p) 0 = 0 := by simp [term]
      exact term_eq_zero_of_le (Nat.zero_le _) hzero (Nat.zero_le k)
  · have hfits : 2 ^ n * q < u32Size := by unfold u32Size; omega
    have hfits' : 2 ^ (n + 1) * q < u32Size := by unfold u32Size; omega
    have hsum : p + 2 ^ n * q < u32Size := by unfold u32Size; omega
    have hexp : n * 1000000 < u32Size := by unfold u32Size; omega
    rw [if_neg heq, findExponent_eq hq hp hn 32 0 (Nat.zero_le n) (by omega)]
    rw [ok_bind, pow2_of_lt (by omega), ok_bind, Build.mul, Build.fit_of_lt hfits', ok_bind,
      asserted, if_pos hn.2, ok_bind, pow2_of_lt (by omega), ok_bind, Build.mul,
      Build.fit_of_lt hfits, ok_bind, Build.sub_of_le hlow, ok_bind, Build.add,
      Build.fit_of_lt hsum, ok_bind, Build.mul, Build.fit_of_lt hexp, ok_bind]
    rw [addTerms_eq (by omega) hn.third 6 0 rfl _ _ (by decide) (by omega) (Nat.zero_le _),
      sumOfTerms_zero, Nat.sub_zero]
    rfl

/-- The largest fraction. -/
example (b : Build) : log2 b 1000000 1 = .ok 19931564 :=
  log2_eq (n := 19) (by decide) (by decide) (by decide) ⟨by decide, by decide⟩

end Setheum.RewardCurve
