import Mathlib.Data.Nat.Basic
import Mathlib.Order.Basic
import Mathlib.Tactic.Ring

/-!
# Unsigned 128-bit balances, signed amounts and 18-decimal fixed point

Balances are natural numbers up to `u128::MAX`; the operations are the saturating and checked
ones of the source language. A `FixedU128` is its inner value, a count of `10 ^ 18`-ths, and its
products and quotients all go through `multiplyByRational`, which rounds down while the product
fits a balance and to the nearest integer above that.

* `quotient_le` — rounding never exceeds an integer bound on the exact quotient.
* `quotient_within` — nor is it one or more away from it.
* `saturatingMulInt_le` — an integer times a ratio that is at most one is at most the integer.
* `checkedFromRational_le` — the ratio of a part to a whole is at most one.
* `Permill.sum_mul` — what rounding several parts of a whole drops and adds.
* `saturatingMulInt_mul_le`, `checkedMulInt_mul_le` — a part taken through a ratio is at most the
  exact part, if both roundings go down.
-/

set_option autoImplicit false

namespace Balance

/-- The largest balance, `u128::MAX`. -/
def maxValue : ℕ := 2 ^ 128 - 1

def saturatingAdd (a b : ℕ) : ℕ := min (a + b) maxValue

def saturatingMul (a b : ℕ) : ℕ := min (a * b) maxValue

def checkedAdd (a b : ℕ) : Option ℕ := if a + b ≤ maxValue then some (a + b) else none

def checkedSub (a b : ℕ) : Option ℕ := if b ≤ a then some (a - b) else none

def checkedMul (a b : ℕ) : Option ℕ := if a * b ≤ maxValue then some (a * b) else none

def checkedDiv (a b : ℕ) : Option ℕ := if b = 0 then none else some (a / b)

def checkedPow (a n : ℕ) : Option ℕ := if a ^ n ≤ maxValue then some (a ^ n) else none

theorem saturatingAdd_eq {a b : ℕ} (h : a + b ≤ maxValue) : saturatingAdd a b = a + b :=
  min_eq_left h

theorem checkedAdd_eq_some {a b c : ℕ} :
    checkedAdd a b = some c ↔ a + b = c ∧ c ≤ maxValue := by
  unfold checkedAdd
  split <;> grind

theorem checkedAdd_eq_none {a b : ℕ} : checkedAdd a b = none ↔ ¬ a + b ≤ maxValue := by
  unfold checkedAdd
  split <;> simp_all

theorem checkedMul_eq_some {a b c : ℕ} :
    checkedMul a b = some c ↔ a * b = c ∧ c ≤ maxValue := by
  unfold checkedMul
  split <;> grind

/-- The powers of ten that fit a balance. -/
theorem ten_pow_le_iff {n : ℕ} : 10 ^ n ≤ maxValue ↔ n ≤ 38 := by
  have hlow : 10 ^ 38 ≤ maxValue := by decide
  have hhigh : maxValue < 10 ^ 39 := by decide
  constructor
  · intro h
    by_contra hn
    have hpow : 10 ^ 39 ≤ 10 ^ n := Nat.pow_le_pow_right (by decide) (by omega)
    omega
  · intro hn
    exact (Nat.pow_le_pow_right (by decide) hn).trans hlow

theorem checkedSub_eq_some {a b c : ℕ} : checkedSub a b = some c ↔ c + b = a := by
  unfold checkedSub
  split <;> grind

end Balance

namespace Amount

/-- The largest signed amount, `i128::MAX`. -/
def maxValue : ℤ := 2 ^ 127 - 1

/-- The smallest signed amount, `i128::MIN`. -/
def minValue : ℤ := -2 ^ 127

/-- `saturating_abs` followed by the conversion to a balance: `i128::MIN` gives `i128::MAX`. -/
def saturatingAbs (a : ℤ) : ℕ := min a.natAbs maxValue.toNat

theorem saturatingAbs_eq {a : ℤ} (h : minValue < a) (h' : a ≤ maxValue) :
    saturatingAbs a = a.natAbs := by
  unfold saturatingAbs
  unfold minValue at h
  unfold maxValue at h' ⊢
  omega

/-- An amount with the magnitude that `saturating_abs` leaves it. -/
def saturated (a : ℤ) : ℤ := if 0 < a then saturatingAbs a else -saturatingAbs a

theorem saturated_eq {a : ℤ} (h : minValue < a) (h' : a ≤ maxValue) : saturated a = a := by
  unfold saturated
  rw [saturatingAbs_eq h h']
  split <;> omega

/-- A balance that converts to an amount can also be negated. -/
theorem saturated_neg {b : ℕ} (h : (b : ℤ) ≤ maxValue) : saturated (-b) = -b := by
  unfold maxValue at h
  apply saturated_eq
  · unfold minValue
    omega
  · unfold maxValue
    omega

def checkedDiv (a b : ℤ) : Option ℤ :=
  if b = 0 ∨ maxValue < a.tdiv b then none else some (a.tdiv b)

def checkedSub (a b : ℤ) : Option ℤ :=
  if minValue ≤ a - b ∧ a - b ≤ maxValue then some (a - b) else none

end Amount

namespace Permill

/-- The number of parts in one. -/
def accuracy : ℕ := 10 ^ 6

/-- `parts` millionths of `n`, to the nearest integer and halves down. -/
def mul (parts n : ℕ) : ℕ :=
  n / accuracy * parts + n % accuracy * parts / accuracy
    + if accuracy / 2 < n % accuracy * parts % accuracy then 1 else 0

/-- What is left of `parts` millionths of `n` beyond an integer, in millionths. -/
def remainder (parts n : ℕ) : ℕ := n % accuracy * parts % accuracy

/-- The remainder is rounded up. -/
def RoundsUp (parts n : ℕ) : Prop := accuracy / 2 < remainder parts n

instance (parts n : ℕ) : Decidable (RoundsUp parts n) := inferInstanceAs (Decidable (_ < _))

/-- Rounding drops the remainder and may add one. -/
theorem accuracy_mul_mul (parts n : ℕ) :
    accuracy * mul parts n + remainder parts n
      = n * parts + if RoundsUp parts n then accuracy else 0 := by
  have hrem : accuracy * (n % accuracy * parts / accuracy) + remainder parts n
      = n % accuracy * parts := Nat.div_add_mod _ _
  have hn : accuracy * (n / accuracy * parts) + n % accuracy * parts = n * parts := by
    rw [← Nat.mul_assoc, ← Nat.add_mul, Nat.div_add_mod]
  have hmul : mul parts n = n / accuracy * parts + n % accuracy * parts / accuracy
      + if RoundsUp parts n then 1 else 0 := rfl
  rw [hmul, Nat.mul_add, Nat.mul_add]
  split <;> omega

/-- What several parts add up to, against the same parts of the whole. -/
theorem sum_mul (ratios : List ℕ) (n : ℕ) :
    accuracy * (ratios.map fun r => mul r n).sum + (ratios.map fun r => remainder r n).sum
      = n * ratios.sum + accuracy * ratios.countP fun r => RoundsUp r n := by
  induction ratios with
  | nil => simp
  | cons r ratios ih =>
      have hr := accuracy_mul_mul r n
      simp only [List.map_cons, List.sum_cons, List.countP_cons, Nat.mul_add, decide_eq_true_eq]
      split at hr
      · rename_i hup
        rw [if_pos hup]
        omega
      · rename_i hup
        rw [if_neg hup]
        omega

end Permill

namespace U64

/-- One more than the largest `u64`. -/
def size : ℕ := 2 ^ 64

/-- An addition that must not overflow. -/
def add (a b : ℕ) : Option ℕ := if a + b < size then some (a + b) else none

/-- A multiplication that must not overflow. -/
def mul (a b : ℕ) : Option ℕ := if a * b < size then some (a * b) else none

end U64

namespace Perquintill

/-- The number of parts in one. -/
def accuracy : ℕ := 10 ^ 18

/-- `parts` of `n` in 64-bit arithmetic, to the nearest integer and halves down. The part of the
remainder is computed in 128 bits. `none` is an overflow. -/
def mul (parts n : ℕ) : Option ℕ := do
  let whole ← U64.mul (n / accuracy) parts
  let rest ← U64.add (n % accuracy * parts / accuracy)
    (if accuracy / 2 < n % accuracy * parts % accuracy then 1 else 0)
  U64.add whole rest

/-- **Parts of a whole are computed without an overflow, and are at most the whole.** -/
theorem mul_le {parts n : ℕ} (hparts : parts ≤ accuracy) (hn : n < U64.size) :
    ∃ m, mul parts n = some m ∧ m ≤ n := by
  have hwhole : n / accuracy * parts ≤ n / accuracy * accuracy := Nat.mul_le_mul_left _ hparts
  have hrest : n % accuracy * parts ≤ n % accuracy * accuracy := Nat.mul_le_mul_left _ hparts
  have hn' : n / accuracy * accuracy + n % accuracy = n := Nat.div_add_mod' n accuracy
  have hround : n % accuracy * parts / accuracy
      + (if accuracy / 2 < n % accuracy * parts % accuracy then 1 else 0) ≤ n % accuracy := by
    have hpos : 0 < accuracy := by decide
    have hdiv := Nat.div_add_mod' (n % accuracy * parts) accuracy
    by_contra hlt
    have hlow : n % accuracy * accuracy ≤ n % accuracy * parts / accuracy * accuracy := by
      refine Nat.mul_le_mul_right accuracy ?_
      split at hlt <;> omega
    split at hlt
    · omega
    · have hstrict : (n % accuracy + 1) * accuracy
          ≤ n % accuracy * parts / accuracy * accuracy :=
        Nat.mul_le_mul_right accuracy (by omega)
      rw [Nat.add_mul] at hstrict
      omega
  refine ⟨n / accuracy * parts + (n % accuracy * parts / accuracy
    + if accuracy / 2 < n % accuracy * parts % accuracy then 1 else 0), ?_, by omega⟩
  simp only [mul, U64.mul, U64.add]
  rw [if_pos (by omega), Option.bind_eq_bind, Option.bind_some, if_pos (by omega),
    Option.bind_some, if_pos (by omega)]

end Perquintill

namespace FixedU128

/-- The number of fractional units in one, `FixedU128::DIV`. -/
def accuracy : ℕ := 10 ^ 18

/-- `product / c`, rounded down while the product fits a balance or the divisor one limb, and to
the nearest integer otherwise. -/
def quotient (product c : ℕ) : ℕ :=
  if product ≤ Balance.maxValue ∨ c < 2 ^ 32 ∨ product % c ≤ c / 2 then product / c
  else product / c + 1

/-- `multiply_by_rational`: `a * b / c`, `none` when it does not fit a balance. -/
def multiplyByRational (a b c : ℕ) : Option ℕ :=
  if quotient (a * b) (max c 1) ≤ Balance.maxValue then some (quotient (a * b) (max c 1))
  else none

/-- `checked_from_rational`: the ratio `n / d`. -/
def checkedFromRational (n d : ℕ) : Option ℕ :=
  if d = 0 then none else multiplyByRational n accuracy d

/-- `checked_mul` of two fixed-point numbers. -/
def checkedMul (x y : ℕ) : Option ℕ := multiplyByRational x y accuracy

/-- `checked_mul_int`: `x * n` for a fixed-point `x` and an integer `n`. -/
def checkedMulInt (x n : ℕ) : Option ℕ := multiplyByRational x n accuracy

/-- `saturating_mul_int`: `checked_mul_int`, capped at the largest balance. -/
def saturatingMulInt (x n : ℕ) : ℕ := (checkedMulInt x n).getD Balance.maxValue

/-- `checked_div` of two fixed-point numbers. -/
def checkedDiv (x y : ℕ) : Option ℕ :=
  if y = 0 then none else multiplyByRational x accuracy y

/-- `saturating_mul` of two fixed-point numbers. -/
def saturatingMul (x y : ℕ) : ℕ := (checkedMul x y).getD Balance.maxValue

/-- `saturating_from_integer`. -/
def saturatingFromInteger (n : ℕ) : ℕ := Balance.saturatingMul n accuracy

/-- `saturating_from_rational`: the ratio `n / d`; `none` is the division by zero. -/
def saturatingFromRational (n d : ℕ) : Option ℕ :=
  if d = 0 then none else some ((checkedFromRational n d).getD Balance.maxValue)

@[simp] theorem saturatingMulInt_zero (x : ℕ) : saturatingMulInt x 0 = 0 := by
  simp [saturatingMulInt, checkedMulInt, multiplyByRational, quotient]

/-- Rounding never exceeds an integer bound on the exact quotient. -/
theorem quotient_le {product c k : ℕ} (h : product ≤ k * c) :
    quotient product c ≤ k := by
  have hfloor : product / c ≤ k := Nat.div_le_of_le_mul (by rw [Nat.mul_comm]; exact h)
  unfold quotient
  split
  · exact hfloor
  · -- rounded up, so a remainder is left and the floor is below the bound
    rename_i hround
    have hrem : 0 < product % c := by omega
    have hdecomp : c * (product / c) + product % c = product := Nat.div_add_mod product c
    by_contra hk
    have heq : product / c = k := by omega
    rw [heq, Nat.mul_comm] at hdecomp
    omega

/-- Nor does it fall below an integer bound. -/
theorem le_quotient {product c k : ℕ} (hc : 0 < c) (h : k * c ≤ product) :
    k ≤ quotient product c := by
  have hfloor : k ≤ product / c := (Nat.le_div_iff_mul_le hc).mpr h
  unfold quotient
  split
  · exact hfloor
  · exact Nat.le_succ_of_le hfloor

/-- **However it is rounded, the quotient is less than one away from the exact one.** -/
theorem quotient_within (product : ℕ) {c : ℕ} (hc : 0 < c) :
    quotient product c * c < product + c ∧ product < quotient product c * c + c := by
  have hdecomp : product / c * c + product % c = product := Nat.div_add_mod' product c
  have hrem : product % c < c := Nat.mod_lt product hc
  unfold quotient
  split
  · omega
  · rename_i hround
    rw [Nat.add_mul]
    omega

/-- A quotient that is not rounded to zero is off by less than a factor of two. -/
theorem quotient_near {product c : ℕ} (hpos : 0 < quotient product c) (hc : 0 < c) :
    quotient product c * c < 2 * product ∧ product < 2 * (quotient product c * c) := by
  have hunit : c ≤ quotient product c * c := Nat.le_mul_of_pos_left c hpos
  have hhalf : 2 * (quotient product c * c) < 2 * product + c := by
    have hdecomp : product / c * c + product % c = product := Nat.div_add_mod' product c
    unfold quotient
    split
    · omega
    · rename_i hround
      rw [Nat.add_mul]
      omega
  have hwithin := quotient_within product hc
  omega

theorem multiplyByRational_eq_some {a b c x : ℕ} (hc : 0 < c) :
    multiplyByRational a b c = some x ↔ quotient (a * b) c = x ∧ x ≤ Balance.maxValue := by
  unfold multiplyByRational
  rw [Nat.max_eq_left hc]
  split <;> grind

theorem checkedMul_le_maxValue {x y z : ℕ} (h : checkedMul x y = some z) :
    z ≤ Balance.maxValue := by
  unfold checkedMul multiplyByRational at h
  split at h
  · cases h
    assumption
  · cases h

theorem checkedDiv_eq_some {x y z : ℕ} :
    checkedDiv x y = some z ↔
      0 < y ∧ quotient (x * accuracy) y = z ∧ z ≤ Balance.maxValue := by
  unfold checkedDiv
  split
  · rename_i hy
    simp [hy]
  · rename_i hy
    rw [multiplyByRational_eq_some (Nat.pos_of_ne_zero hy)]
    simp [Nat.pos_of_ne_zero hy]

/-- A division by one or more does not overflow. -/
theorem checkedDiv_of_accuracy_le {x y : ℕ} (hx : x ≤ Balance.maxValue) (hy : accuracy ≤ y) :
    ∃ z, checkedDiv x y = some z ∧ z ≤ x := by
  have hle : quotient (x * accuracy) y ≤ x := quotient_le (Nat.mul_le_mul_left x hy)
  have hpos : 0 < y := lt_of_lt_of_le (by decide) hy
  exact ⟨_, checkedDiv_eq_some.mpr ⟨hpos, rfl, hle.trans hx⟩, hle⟩

theorem saturatingMul_le (x y : ℕ) : saturatingMul x y ≤ Balance.maxValue := by
  unfold saturatingMul checkedMul multiplyByRational
  split
  · rename_i hle
    exact hle
  · exact le_refl _

theorem checkedFromRational_eq_some {n d x : ℕ} :
    checkedFromRational n d = some x ↔
      0 < d ∧ quotient (n * accuracy) d = x ∧ x ≤ Balance.maxValue :=
  checkedDiv_eq_some

/-- A ratio that is a whole number of fractional units is exact. -/
theorem checkedFromRational_exact {n d x : ℕ} (hd : 0 < d) (hx : n * accuracy = x * d)
    (hle : x ≤ Balance.maxValue) : checkedFromRational n d = some x := by
  have hquotient : quotient (n * accuracy) d = x := by
    rw [hx, quotient, Nat.mul_mod_left, Nat.mul_div_cancel x hd]
    exact if_pos (.inr (.inr (Nat.zero_le _)))
  exact checkedFromRational_eq_some.mpr ⟨hd, hquotient, hle⟩

theorem multiplyByRational_le {a b c k x : ℕ} (hc : 0 < c) (hle : a * b ≤ k * c)
    (h : multiplyByRational a b c = some x) : x ≤ k := by
  unfold multiplyByRational at h
  rw [Nat.max_eq_left hc] at h
  split at h
  · cases h
    exact quotient_le hle
  · cases h

/-- The ratio of a part to a whole is at most one. -/
theorem checkedFromRational_le {n d x : ℕ} (hle : n ≤ d)
    (h : checkedFromRational n d = some x) : x ≤ accuracy := by
  unfold checkedFromRational at h
  split at h
  · cases h
  · rename_i hd
    refine multiplyByRational_le (Nat.pos_of_ne_zero hd) ?_ h
    rw [Nat.mul_comm accuracy d]
    exact Nat.mul_le_mul_right accuracy hle

/-- An integer times a ratio that is at most one is at most the integer. -/
theorem saturatingMulInt_le {x n : ℕ} (hx : x ≤ accuracy) (hn : n ≤ Balance.maxValue) :
    saturatingMulInt x n ≤ n := by
  have hprod : x * n ≤ n * accuracy := by
    rw [Nat.mul_comm n]
    exact Nat.mul_le_mul_right n hx
  have hquot : quotient (x * n) (max accuracy 1) ≤ n := quotient_le hprod
  have hfit : quotient (x * n) (max accuracy 1) ≤ Balance.maxValue := hquot.trans hn
  rw [saturatingMulInt, checkedMulInt, multiplyByRational, if_pos hfit]
  exact hquot

/-- How far a product may be above a multiple of the unit and still be rounded to it. -/
def slack (product : ℕ) : ℕ :=
  if product ≤ Balance.maxValue then accuracy - 1 else accuracy / 2

theorem quotient_accuracy_le_iff {product k : ℕ} :
    quotient product accuracy ≤ k ↔ product ≤ k * accuracy + slack product := by
  have hdecomp : product / accuracy * accuracy + product % accuracy = product :=
    Nat.div_add_mod' product accuracy
  have hrem : product % accuracy < accuracy := Nat.mod_lt product (by decide)
  have hround : ¬ accuracy < 2 ^ 32 := by decide
  unfold quotient slack
  by_cases hfits : product ≤ Balance.maxValue
  · rw [if_pos (.inl hfits), if_pos hfits]
    unfold accuracy at *
    omega
  · by_cases hdown : product % accuracy ≤ accuracy / 2
    · rw [if_pos (.inr (.inr hdown)), if_neg hfits]
      unfold accuracy at *
      omega
    · rw [if_neg (by omega), if_neg hfits]
      unfold accuracy at *
      omega

theorem saturatingMulInt_le_iff {x n k : ℕ} (hk : k ≤ Balance.maxValue) :
    saturatingMulInt x n ≤ k ↔
      k = Balance.maxValue ∨ x * n ≤ k * accuracy + slack (x * n) := by
  rw [← quotient_accuracy_le_iff, saturatingMulInt, checkedMulInt, multiplyByRational,
    Nat.max_eq_left (by decide : 1 ≤ accuracy)]
  split
  · rw [Option.getD_some]
    omega
  · rw [Option.getD_none]
    omega

/-- Rounding never exceeds an integer bound on the exact product. -/
theorem saturatingMulInt_le_of_mul_le {x n k : ℕ} (hk : k ≤ Balance.maxValue)
    (h : x * n ≤ k * accuracy) : saturatingMulInt x n ≤ k :=
  (saturatingMulInt_le_iff hk).mpr (.inr (h.trans (Nat.le_add_right _ _)))

theorem slack_antitone {product product' : ℕ} (h : product ≤ product') :
    slack product' ≤ slack product := by
  unfold slack accuracy
  split
  · rw [if_pos (h.trans ‹_›)]
  · split <;> omega

/-- A larger product is rounded to no less. -/
theorem quotient_accuracy_mono {product product' : ℕ} (h : product ≤ product') :
    quotient product accuracy ≤ quotient product' accuracy := by
  have hself := quotient_accuracy_le_iff.mp (le_refl (quotient product' accuracy))
  have hslack := slack_antitone h
  exact quotient_accuracy_le_iff.mpr (by omega)

theorem saturatingMulInt_eq_min (x n : ℕ) :
    saturatingMulInt x n = min (quotient (x * n) accuracy) Balance.maxValue := by
  rw [saturatingMulInt, checkedMulInt, multiplyByRational,
    Nat.max_eq_left (by decide : 1 ≤ accuracy)]
  split
  · rename_i hfits
    exact (min_eq_left hfits).symm
  · rename_i hbig
    exact (min_eq_right (not_le.mp hbig).le).symm

/-- Rounding and saturation keep the order of the exact products. -/
theorem saturatingMulInt_le_saturatingMulInt {x n x' n' : ℕ} (h : x * n ≤ x' * n') :
    saturatingMulInt x n ≤ saturatingMulInt x' n' := by
  rw [saturatingMulInt_eq_min, saturatingMulInt_eq_min]
  exact min_le_min_right _ (quotient_accuracy_mono h)

/-- `quotient` rounds down here. -/
def RoundsDown (product c : ℕ) : Prop :=
  product ≤ Balance.maxValue ∨ c < 2 ^ 32 ∨ product % c ≤ c / 2

instance (product c : ℕ) : Decidable (RoundsDown product c) :=
  inferInstanceAs (Decidable (_ ∨ _ ∨ _))

theorem quotient_eq_div {product c : ℕ} (h : RoundsDown product c) :
    quotient product c = product / c :=
  if_pos h

/-- Rounding down drops the remainder; otherwise one is added. -/
theorem accuracy_mul_quotient (product : ℕ) :
    accuracy * quotient product accuracy + product % accuracy
      = product + if RoundsDown product accuracy then 0 else accuracy := by
  have hdecomp : accuracy * (product / accuracy) + product % accuracy = product :=
    Nat.div_add_mod product accuracy
  by_cases hdown : RoundsDown product accuracy
  · rw [quotient_eq_div hdown, if_pos hdown]
    omega
  · have hup : quotient product accuracy = product / accuracy + 1 := if_neg hdown
    rw [hup, if_neg hdown, Nat.mul_add]
    omega

/-- What several products with one number add up to, against their exact sum. -/
theorem sum_quotient (x : ℕ) (parts : List ℕ) :
    accuracy * (parts.map fun n => quotient (x * n) accuracy).sum
        + (parts.map fun n => x * n % accuracy).sum
      = x * parts.sum + accuracy * parts.countP fun n => ¬ RoundsDown (x * n) accuracy := by
  induction parts with
  | nil => simp
  | cons n parts ih =>
      have hn := accuracy_mul_quotient (x * n)
      simp only [List.map_cons, List.sum_cons, List.countP_cons, Nat.mul_add, decide_eq_true_eq]
      by_cases hdown : RoundsDown (x * n) accuracy
      · rw [if_pos hdown] at hn
        rw [if_neg (not_not.mpr hdown)]
        omega
      · rw [if_neg hdown] at hn
        rw [if_pos hdown]
        omega

/-- Taking the part `n / d` of `k`, through the fixed-point ratio, rounds down both times. -/
def PartRoundsDown (n d k : ℕ) : Prop :=
  RoundsDown (n * accuracy) d ∧
    RoundsDown ((checkedFromRational n d).getD 0 * k) accuracy

instance (n d k : ℕ) : Decidable (PartRoundsDown n d k) := inferInstanceAs (Decidable (_ ∧ _))

theorem checkedFromRational_mul_le {n d x : ℕ} (hdown : RoundsDown (n * accuracy) d)
    (h : checkedFromRational n d = some x) : x * d ≤ n * accuracy := by
  unfold checkedFromRational at h
  split at h
  · cases h
  · rename_i hd
    unfold multiplyByRational at h
    rw [Nat.max_eq_left (Nat.pos_of_ne_zero hd), quotient_eq_div hdown] at h
    split at h
    · cases h
      exact Nat.div_mul_le_self _ _
    · cases h

/-- A part that is rounded down both times, capped at the largest balance, is at most the exact
part. -/
theorem saturatingMulInt_mul_le {n d k : ℕ} (hdown : PartRoundsDown n d k) :
    saturatingMulInt ((checkedFromRational n d).getD 0) k * d ≤ n * k := by
  cases hx : checkedFromRational n d with
  | none => simp [saturatingMulInt, checkedMulInt, multiplyByRational, quotient]
  | some x =>
      have hratio : x * d ≤ n * accuracy := checkedFromRational_mul_le hdown.1 hx
      have hround : RoundsDown (x * k) accuracy := by
        have h := hdown.2
        rwa [hx] at h
      have hpart : saturatingMulInt x k ≤ x * k / accuracy := by
        unfold saturatingMulInt checkedMulInt multiplyByRational
        rw [Nat.max_eq_left (by decide : 1 ≤ accuracy), quotient_eq_div hround]
        split
        · exact le_refl _
        · rename_i hbig
          exact (not_le.mp hbig).le
      have hfloor : x * k / accuracy * accuracy ≤ x * k := Nat.div_mul_le_self _ _
      have hscaled : saturatingMulInt x k * d * accuracy ≤ n * k * accuracy := by
        calc saturatingMulInt x k * d * accuracy
            = saturatingMulInt x k * accuracy * d := by ring
          _ ≤ x * k / accuracy * accuracy * d :=
              Nat.mul_le_mul_right d (Nat.mul_le_mul_right accuracy hpart)
          _ ≤ x * k * d := Nat.mul_le_mul_right d hfloor
          _ = x * d * k := by ring
          _ ≤ n * accuracy * k := Nat.mul_le_mul_right k hratio
          _ = n * k * accuracy := by ring
      exact Nat.le_of_mul_le_mul_right hscaled (by decide : 0 < accuracy)

/-- The same for a part that is computed without a cap. -/
theorem checkedMulInt_mul_le {n d k m : ℕ} (hdown : PartRoundsDown n d k)
    (h : ((checkedFromRational n d).bind fun x => checkedMulInt x k) = some m) :
    0 < d ∧ m * d ≤ n * k := by
  cases hx : checkedFromRational n d with
  | none =>
      rw [hx] at h
      cases h
  | some x =>
      have hd : 0 < d := by
        unfold checkedFromRational at hx
        split at hx
        · cases hx
        · rename_i hd
          exact Nat.pos_of_ne_zero hd
      have hpart := saturatingMulInt_mul_le hdown
      rw [hx] at h hpart
      have hm : checkedMulInt x k = some m := h
      simp only [saturatingMulInt, Option.getD_some, hm] at hpart
      exact ⟨hd, hpart⟩

end FixedU128
