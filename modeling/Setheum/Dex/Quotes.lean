import Setheum.Dex.Model
import Setheum.Lib.ConstantProduct

/-!
# Quotes of a single hop

An exact-supply quote is that of a constant-product pool, for a supply that is capped at 128 bits
once the fee is taken off. An exact-target quote is its inverse, rounded up, while the cap is not
reached.

* `getTargetAmount_eq` — the quote is `ConstantProduct.quote`.
* `quotes_invert_iff` — when the supply that is quoted for a target buys it.
* `getTargetAmount_split` — a supply that is traded in two parts buys no more.
-/

set_option autoImplicit false

namespace Setheum.Dex

open ConstantProduct

variable {fee : ℕ × ℕ} {x y n n' m t : ℕ}

/-- A supply in units of the fee's denominator, with the fee taken off. -/
def supplyWithFee (fee : ℕ × ℕ) (n : ℕ) : ℕ := Balance.saturatingMul n (fee.2 - fee.1)

theorem supplyWithFee_le (fee : ℕ × ℕ) (n : ℕ) : supplyWithFee fee n ≤ n * (fee.2 - fee.1) :=
  Nat.min_le_left _ _

theorem supplyWithFee_le_max (fee : ℕ × ℕ) (n : ℕ) : supplyWithFee fee n ≤ Balance.maxValue :=
  Nat.min_le_right _ _

theorem supplyWithFee_eq (h : n * (fee.2 - fee.1) ≤ Balance.maxValue) :
    supplyWithFee fee n = n * (fee.2 - fee.1) := Nat.min_eq_left h

theorem supplyWithFee_mono (h : n ≤ m) : supplyWithFee fee n ≤ supplyWithFee fee m := by
  have hmul : n * (fee.2 - fee.1) ≤ m * (fee.2 - fee.1) := Nat.mul_le_mul_right _ h
  unfold supplyWithFee Balance.saturatingMul
  omega

/-- **The exact-supply quote.** No number in it comes near 256 bits. -/
theorem getTargetAmount_eq (hx : 0 < x) (hxm : x ≤ Balance.maxValue) (hym : y ≤ Balance.maxValue)
    (hd : 0 < fee.2) (hu32 : fee.2 < 2 ^ 32) (n : ℕ) :
    getTargetAmount fee x y n = quote x y (supplyWithFee fee n) fee.2 := by
  have hpos : 0 < x * fee.2 := Nat.mul_pos hx hd
  by_cases hzero : n = 0 ∨ x = 0 ∨ y = 0
  · have hquote : supplyWithFee fee n * y = 0 := by
      obtain rfl | rfl | rfl := hzero
      · simp [supplyWithFee, Balance.saturatingMul]
      · omega
      · exact Nat.mul_zero _
    unfold getTargetAmount quote
    rw [if_pos hzero, hquote, Nat.zero_div]
  · have hsupply := supplyWithFee_le_max fee n
    have hnumerator : supplyWithFee fee n * y ≤ u256Max := by
      have hprod := Nat.mul_le_mul hsupply hym
      unfold Balance.maxValue at hprod
      unfold u256Max
      omega
    have hdenominator : x * fee.2 + supplyWithFee fee n ≤ u256Max := by
      have hprod : x * fee.2 ≤ Balance.maxValue * 2 ^ 32 := Nat.mul_le_mul hxm hu32.le
      unfold Balance.maxValue at hprod hsupply
      unfold u256Max
      omega
    have hfits : quote x y (supplyWithFee fee n) fee.2 ≤ Balance.maxValue := by
      have hlt : quote x y (supplyWithFee fee n) fee.2 < y := quote_lt hpos (by omega)
      omega
    have hmin : min (min (x * fee.2) u256Max + supplyWithFee fee n) u256Max
        = x * fee.2 + supplyWithFee fee n := by omega
    unfold quote at hfits ⊢
    unfold getTargetAmount
    rw [if_neg hzero]
    show (let numerator := min (supplyWithFee fee n * y) u256Max
      let denominator := min (min (x * fee.2) u256Max + supplyWithFee fee n) u256Max
      if denominator = 0 then 0
      else if numerator / denominator ≤ Balance.maxValue then numerator / denominator
      else 0) = _
    simp only [hmin, Nat.min_eq_left hnumerator]
    rw [if_neg (by omega), if_pos hfits]

/-- The part of the target pool that a supply may cost before the cap of the supply is reached. -/
theorem target_le_getTargetAmount_iff (hx : 0 < x) (hxm : x ≤ Balance.maxValue)
    (hym : y ≤ Balance.maxValue) (hd : 0 < fee.2) (hu32 : fee.2 < 2 ^ 32) (ht : t ≤ y) :
    t ≤ getTargetAmount fee x y n ↔ t * (x * fee.2) ≤ supplyWithFee fee n * (y - t) := by
  rw [getTargetAmount_eq hx hxm hym hd hu32]
  exact le_quote_iff (Nat.mul_pos hx hd) ht

theorem getTargetAmount_lt (hx : 0 < x) (hxm : x ≤ Balance.maxValue) (hy : 0 < y)
    (hym : y ≤ Balance.maxValue) (hd : 0 < fee.2) (hu32 : fee.2 < 2 ^ 32) :
    getTargetAmount fee x y n < y := by
  rw [getTargetAmount_eq hx hxm hym hd hu32]
  exact quote_lt (Nat.mul_pos hx hd) hy

theorem getTargetAmount_mono (hx : 0 < x) (hxm : x ≤ Balance.maxValue)
    (hym : y ≤ Balance.maxValue) (hd : 0 < fee.2) (hu32 : fee.2 < 2 ^ 32) (h : n ≤ m) :
    getTargetAmount fee x y n ≤ getTargetAmount fee x y m := by
  rw [getTargetAmount_eq hx hxm hym hd hu32, getTargetAmount_eq hx hxm hym hd hu32]
  exact quote_mono (Nat.mul_pos hx hd) (supplyWithFee_mono h)

/-- A supply that is traded in two parts buys no more, if the pool and the supply fit. -/
theorem getTargetAmount_split (hx : 0 < x) (hym : y ≤ Balance.maxValue)
    (hd : 0 < fee.2) (hu32 : fee.2 < 2 ^ 32) (hfee : (n + m) * (fee.2 - fee.1) ≤ Balance.maxValue)
    (hpool : x + n + m ≤ Balance.maxValue) :
    getTargetAmount fee x y n +
        getTargetAmount fee (x + n) (y - getTargetAmount fee x y n) m
      ≤ getTargetAmount fee x y (n + m) := by
  have hxm : x ≤ Balance.maxValue := by omega
  have hsum : supplyWithFee fee (n + m) = supplyWithFee fee n + supplyWithFee fee m := by
    have hexpand : (n + m) * (fee.2 - fee.1) = n * (fee.2 - fee.1) + m * (fee.2 - fee.1) :=
      Nat.add_mul ..
    rw [supplyWithFee_eq hfee, supplyWithFee_eq (by omega), supplyWithFee_eq (by omega), hexpand]
  have hless : supplyWithFee fee n ≤ n * fee.2 :=
    Nat.le_trans (supplyWithFee_le fee n) (Nat.mul_le_mul_left n (Nat.sub_le _ _))
  rw [getTargetAmount_eq hx hxm hym hd hu32, getTargetAmount_eq hx hxm hym hd hu32,
    getTargetAmount_eq (by omega) (by omega) (by omega) hd hu32, hsum]
  exact quote_split (Nat.mul_pos hx hd) hless

/-! ## The supply for a target -/

/-- A target that is quoted at all is in the pool. -/
theorem getSupplyAmount_pos (h : 0 < getSupplyAmount fee x y t) : 0 < t ∧ 0 < x ∧ t < y := by
  unfold getSupplyAmount at h
  split at h
  · omega
  · have hlt : t < y := by
      by_contra hle
      have hzero : y - t = 0 := by omega
      simp [hzero] at h
    omega

/-- What the exact-target quote divides. -/
theorem getSupplyAmount_eq_min (hn : fee.1 < fee.2) (hym : y ≤ Balance.maxValue)
    (hu32 : fee.2 < 2 ^ 32) (hpos : 0 < getSupplyAmount fee x y t) :
    getSupplyAmount fee x y t
      = min (x * t * fee.2) u256Max / ((y - t) * (fee.2 - fee.1)) + 1 := by
  have hden : (y - t) * (fee.2 - fee.1) ≤ u256Max := by
    have hprod : (y - t) * (fee.2 - fee.1) ≤ Balance.maxValue * 2 ^ 32 :=
      Nat.mul_le_mul (by omega) (by omega)
    unfold Balance.maxValue at hprod
    unfold u256Max
    omega
  have hnumerator : min (min (x * t) u256Max * fee.2) u256Max = min (x * t * fee.2) u256Max := by
    rcases Nat.le_total (x * t) u256Max with hfits | hsaturates
    · rw [Nat.min_eq_left hfits]
    · have hfirst : u256Max * 1 ≤ u256Max * fee.2 := Nat.mul_le_mul_left _ (by omega)
      have hsecond : u256Max * fee.2 ≤ x * t * fee.2 := Nat.mul_le_mul_right _ hsaturates
      rw [Nat.min_eq_right hsaturates]
      omega
  unfold getSupplyAmount at hpos ⊢
  split at hpos
  · omega
  · rename_i hnonzero
    rw [if_neg hnonzero]
    simp only [hnumerator, Nat.min_eq_left hden] at hpos ⊢
    split at hpos
    · omega
    · rename_i hne
      split at hpos
      · rename_i hfits
        rw [if_neg hne, if_pos hfits]
      · omega

/-- The exact-target quote, if it does not reach 256 bits. -/
theorem getSupplyAmount_eq (hn : fee.1 < fee.2) (hym : y ≤ Balance.maxValue)
    (hu32 : fee.2 < 2 ^ 32) (hmax : x * t * fee.2 ≤ u256Max)
    (hpos : 0 < getSupplyAmount fee x y t) :
    getSupplyAmount fee x y t = x * t * fee.2 / ((y - t) * (fee.2 - fee.1)) + 1 := by
  rw [getSupplyAmount_eq_min hn hym hu32 hpos, Nat.min_eq_left hmax]

/-- A quoted supply that is not capped could buy its target. -/
theorem cap_of_supply_fits (hn : fee.1 < fee.2) (hym : y ≤ Balance.maxValue)
    (hu32 : fee.2 < 2 ^ 32) (hpos : 0 < getSupplyAmount fee x y t)
    (hfits : getSupplyAmount fee x y t * (fee.2 - fee.1) ≤ Balance.maxValue) :
    x * t * fee.2 ≤ Balance.maxValue * (y - t) := by
  have hty := (getSupplyAmount_pos hpos).2.2
  have hdenominator : 0 < (y - t) * (fee.2 - fee.1) := Nat.mul_pos (by omega) (by omega)
  have hquotient : min (x * t * fee.2) u256Max
      < Balance.maxValue * (y - t) := by
    calc min (x * t * fee.2) u256Max
        < (y - t) * (fee.2 - fee.1) *
            (min (x * t * fee.2) u256Max / ((y - t) * (fee.2 - fee.1)) + 1) :=
          Nat.lt_mul_div_succ _ hdenominator
      _ = getSupplyAmount fee x y t * (fee.2 - fee.1) * (y - t) := by
          rw [getSupplyAmount_eq_min hn hym hu32 hpos]
          ring
      _ ≤ Balance.maxValue * (y - t) := Nat.mul_le_mul_right _ hfits
  have hsquare : Balance.maxValue * (y - t) ≤ u256Max := by
    have hprod : Balance.maxValue * (y - t) ≤ Balance.maxValue * Balance.maxValue :=
      Nat.mul_le_mul_left _ (by omega)
    unfold Balance.maxValue at hprod ⊢
    unfold u256Max
    omega
  omega

/-- The quotient of the exact-target quote is rounded up, so its supply is worth enough. -/
theorem lt_quotient_succ_mul (hn : fee.1 < fee.2) (hty : t < y) :
    x * t * fee.2 < (x * t * fee.2 / ((y - t) * (fee.2 - fee.1)) + 1) *
      ((y - t) * (fee.2 - fee.1)) := by
  have hpos : 0 < (y - t) * (fee.2 - fee.1) := Nat.mul_pos (by omega) (by omega)
  calc x * t * fee.2
      < (y - t) * (fee.2 - fee.1) * (x * t * fee.2 / ((y - t) * (fee.2 - fee.1)) + 1) :=
        Nat.lt_mul_div_succ _ hpos
    _ = (x * t * fee.2 / ((y - t) * (fee.2 - fee.1)) + 1) * ((y - t) * (fee.2 - fee.1)) :=
        Nat.mul_comm ..

/-- A supply of at least two less than the quoted one is worth too little. -/
theorem mul_lt_of_le_quotient (hn : fee.1 < fee.2) (hty : t < y)
    (h : n < x * t * fee.2 / ((y - t) * (fee.2 - fee.1))) :
    n * ((y - t) * (fee.2 - fee.1)) < x * t * fee.2 := by
  have hpos : 0 < (y - t) * (fee.2 - fee.1) := Nat.mul_pos (by omega) (by omega)
  calc n * ((y - t) * (fee.2 - fee.1))
      < (n + 1) * ((y - t) * (fee.2 - fee.1)) := Nat.mul_lt_mul_of_pos_right (by omega) hpos
    _ ≤ x * t * fee.2 / ((y - t) * (fee.2 - fee.1)) * ((y - t) * (fee.2 - fee.1)) :=
        Nat.mul_le_mul_right _ h
    _ ≤ x * t * fee.2 := Nat.div_mul_le_self ..

section Invert

variable (hx : 0 < x) (hxm : x ≤ Balance.maxValue) (hym : y ≤ Balance.maxValue) (hty : t < y)
  (hn : fee.1 < fee.2) (hu32 : fee.2 < 2 ^ 32)
include hx hxm hym hty hn hu32

/-- What is quoted for a target buys it, if the capped supply can. -/
theorem le_getTargetAmount_getSupplyAmount (hcap : x * t * fee.2 ≤ Balance.maxValue * (y - t))
    (hpos : 0 < getSupplyAmount fee x y t) :
    t ≤ getTargetAmount fee x y (getSupplyAmount fee x y t) := by
  have hmax : x * t * fee.2 ≤ u256Max := by
    have hprod : Balance.maxValue * (y - t) ≤ Balance.maxValue * Balance.maxValue :=
      Nat.mul_le_mul_left _ (by omega)
    unfold Balance.maxValue at hcap hprod
    unfold u256Max
    omega
  have hquotient := lt_quotient_succ_mul (x := x) hn hty
  have hsupply := getSupplyAmount_eq hn hym hu32 hmax hpos
  rw [← hsupply] at hquotient
  rw [target_le_getTargetAmount_iff hx hxm hym (by omega) hu32 hty.le]
  have hcost : t * (x * fee.2) = x * t * fee.2 := by ring
  rw [hcost]
  unfold supplyWithFee Balance.saturatingMul
  rcases Nat.le_total (getSupplyAmount fee x y t * (fee.2 - fee.1)) Balance.maxValue with
    hfits | hsaturates
  · rw [Nat.min_eq_left hfits]
    calc x * t * fee.2 ≤ getSupplyAmount fee x y t * ((y - t) * (fee.2 - fee.1)) := hquotient.le
      _ = getSupplyAmount fee x y t * (fee.2 - fee.1) * (y - t) := by ring
  · rw [Nat.min_eq_right hsaturates]
    exact hcap

/-- A supply that is smaller by two or more does not buy the target. -/
theorem getTargetAmount_lt_of_add_two_le (hmax : x * t * fee.2 ≤ u256Max)
    (hle : n + 2 ≤ getSupplyAmount fee x y t) : getTargetAmount fee x y n < t := by
  have hsupply := getSupplyAmount_eq hn hym hu32 hmax (by omega)
  have hquotient : n * ((y - t) * (fee.2 - fee.1)) < x * t * fee.2 :=
    mul_lt_of_le_quotient hn hty (by omega)
  apply Nat.lt_of_not_le
  rw [target_le_getTargetAmount_iff hx hxm hym (by omega) hu32 hty.le]
  apply Nat.not_le_of_lt
  calc supplyWithFee fee n * (y - t) ≤ n * (fee.2 - fee.1) * (y - t) :=
        Nat.mul_le_mul_right _ (supplyWithFee_le fee n)
    _ = n * ((y - t) * (fee.2 - fee.1)) := by ring
    _ < x * t * fee.2 := hquotient
    _ = t * (x * fee.2) := by ring

/-- **The two quotes of a hop.** The supply that is quoted for a target is the exact one, buys the
target, and one that is smaller by two does not, exactly if a supply of 128 bits could buy it. -/
theorem quotes_invert_iff (hpos : 0 < getSupplyAmount fee x y t) :
    (t ≤ getTargetAmount fee x y (getSupplyAmount fee x y t) ∧
        (∀ n, n + 2 ≤ getSupplyAmount fee x y t → getTargetAmount fee x y n < t) ∧
        getSupplyAmount fee x y t = x * t * fee.2 / ((y - t) * (fee.2 - fee.1)) + 1) ↔
      x * t * fee.2 ≤ Balance.maxValue * (y - t) := by
  constructor
  · rintro ⟨hbuys, -, -⟩
    rw [target_le_getTargetAmount_iff hx hxm hym (by omega) hu32 hty.le] at hbuys
    calc x * t * fee.2 = t * (x * fee.2) := by ring
      _ ≤ supplyWithFee fee (getSupplyAmount fee x y t) * (y - t) := hbuys
      _ ≤ Balance.maxValue * (y - t) := Nat.mul_le_mul_right _ (supplyWithFee_le_max _ _)
  · intro hcap
    have hmax : x * t * fee.2 ≤ u256Max := by
      have hprod : Balance.maxValue * (y - t) ≤ Balance.maxValue * Balance.maxValue :=
        Nat.mul_le_mul_left _ (by omega)
      unfold Balance.maxValue at hcap hprod
      unfold u256Max
      omega
    refine ⟨?_, ?_, ?_⟩
    · exact le_getTargetAmount_getSupplyAmount hx hxm hym hty hn hu32 hcap hpos
    · intro n hle
      exact getTargetAmount_lt_of_add_two_le hx hxm hym hty hn hu32 hmax hle
    · exact getSupplyAmount_eq hn hym hu32 hmax hpos

end Invert

/-- A pool of 1000 against 2000, with a fee of 3 in 1000. -/
theorem quotes_invert_small :
    (500 ≤ getTargetAmount (3, 1000) 1000 2000 (getSupplyAmount (3, 1000) 1000 2000 500) ∧
        (∀ n, n + 2 ≤ getSupplyAmount (3, 1000) 1000 2000 500 →
          getTargetAmount (3, 1000) 1000 2000 n < 500) ∧
        getSupplyAmount (3, 1000) 1000 2000 500
          = 1000 * 500 * 1000 / ((2000 - 500) * (1000 - 3)) + 1) ↔
      1000 * 500 * 1000 ≤ Balance.maxValue * (2000 - 500) :=
  quotes_invert_iff (by decide) (by decide) (by decide) (by decide) (by decide) (by decide)
    (by decide)

/-- **A supply near 128 bits does not buy what it was quoted for.** -/
theorem quoted_supply_short :
    let s := getSupplyAmount (3, 1000) (2 ^ 126) (2 ^ 126) (2 ^ 125)
    0 < s ∧ getTargetAmount (3, 1000) (2 ^ 126) (2 ^ 126) s < 2 ^ 125 := by
  decide +kernel

end Setheum.Dex
