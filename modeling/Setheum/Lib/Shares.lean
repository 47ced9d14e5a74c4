import Mathlib.Algebra.BigOperators.Group.List.Basic
import Mathlib.Algebra.Order.BigOperators.Group.List
import Mathlib.Tactic.Ring

/-!
# Rounded shares of an amount

A `PerThing accuracy` is a part of one, counted in `accuracy`-ths. `fromRational` rounds a ratio
down and `mul` takes the part of an amount to the nearest integer. Splitting an amount by such
parts loses or creates at most half a unit for each share.

* `sum_fromRational_parts_le` — the parts of a whole, each rounded down, make at most one.
* `sum_mul_le` — shares whose parts make at most one make at most the amount, up to half a unit
  for each.
-/

set_option autoImplicit false

/-- A part of one in `accuracy`-ths. -/
structure PerThing (accuracy : ℕ) where
  parts : ℕ
  parts_le : parts ≤ accuracy

namespace PerThing

variable {accuracy : ℕ}

/-- No part. -/
def zero : PerThing accuracy := ⟨0, Nat.zero_le _⟩

/-- The ratio of `p` to `q`, rounded down; `p` counts as at most `q`, and `q` as at least one. -/
def fromRational (p q : ℕ) : PerThing accuracy where
  parts := min p (max q 1) * accuracy / max q 1
  parts_le := by
    have hq : 0 < max q 1 := Nat.lt_of_lt_of_le Nat.one_pos (Nat.le_max_right q 1)
    have hmin : min p (max q 1) * accuracy ≤ max q 1 * accuracy :=
      Nat.mul_le_mul_right accuracy (Nat.min_le_right _ _)
    calc min p (max q 1) * accuracy / max q 1
        ≤ max q 1 * accuracy / max q 1 := Nat.div_le_div_right hmin
      _ = accuracy := Nat.mul_div_cancel_left accuracy hq

/-- The part of `n`, to the nearest integer and halves down. -/
def mul (x : PerThing accuracy) (n : ℕ) : ℕ :=
  x.parts * n / accuracy + if accuracy < 2 * (x.parts * n % accuracy) then 1 else 0

/-- Rounding to the nearest adds at most half a unit. -/
theorem mul_le (x : PerThing accuracy) (n : ℕ) :
    2 * (accuracy * x.mul n) ≤ 2 * (x.parts * n) + accuracy := by
  have hdiv : accuracy * (x.parts * n / accuracy) + x.parts * n % accuracy = x.parts * n :=
    Nat.div_add_mod (x.parts * n) accuracy
  unfold mul
  rw [Nat.mul_add]
  split
  · omega
  · omega

theorem mul_le_self (x : PerThing accuracy) (haccuracy : 0 < accuracy) (n : ℕ) :
    x.mul n ≤ n := by
  have hround := x.mul_le n
  have hpart : x.parts * n ≤ accuracy * n := Nat.mul_le_mul_right n x.parts_le
  by_contra hlt
  have hsucc : accuracy * (n + 1) ≤ accuracy * x.mul n := Nat.mul_le_mul_left accuracy (by omega)
  rw [Nat.mul_add] at hsucc
  omega

/-- A part of a greater amount is no less. -/
theorem mul_mono (x : PerThing accuracy) (haccuracy : 0 < accuracy) {m n : ℕ} (h : m ≤ n) :
    x.mul m ≤ x.mul n := by
  have hm : accuracy * (x.parts * m / accuracy) + x.parts * m % accuracy = x.parts * m :=
    Nat.div_add_mod _ _
  have hn : accuracy * (x.parts * n / accuracy) + x.parts * n % accuracy = x.parts * n :=
    Nat.div_add_mod _ _
  have hprod : x.parts * m ≤ x.parts * n := Nat.mul_le_mul_left x.parts h
  have hdiv : x.parts * m / accuracy ≤ x.parts * n / accuracy := Nat.div_le_div_right hprod
  have hlt : x.parts * m % accuracy < accuracy := Nat.mod_lt _ haccuracy
  unfold mul
  rcases Nat.eq_or_lt_of_le hdiv with heq | hless
  · rw [heq] at hm ⊢
    split
    · rename_i hup
      rw [if_pos (by omega)]
    · omega
  · split
    · omega
    · omega

theorem fromRational_parts_mul_le (p q : ℕ) :
    (fromRational p q : PerThing accuracy).parts * q ≤ accuracy * p := by
  have hfloor : min p (max q 1) * accuracy / max q 1 * max q 1 ≤ min p (max q 1) * accuracy :=
    Nat.div_mul_le_self _ _
  calc (fromRational p q : PerThing accuracy).parts * q
      ≤ (fromRational p q : PerThing accuracy).parts * max q 1 :=
        Nat.mul_le_mul_left _ (Nat.le_max_left q 1)
    _ ≤ min p (max q 1) * accuracy := hfloor
    _ ≤ p * accuracy := Nat.mul_le_mul_right accuracy (Nat.min_le_left _ _)
    _ = accuracy * p := Nat.mul_comm _ _

theorem fromRational_zero_parts (q : ℕ) :
    (fromRational 0 q : PerThing accuracy).parts = 0 := by
  simp [fromRational]

private theorem sum_parts_mul_le (ps : List ℕ) (q : ℕ) :
    (ps.map fun p => (fromRational p q : PerThing accuracy).parts).sum * q
      ≤ accuracy * ps.sum := by
  induction ps with
  | nil => simp
  | cons p ps ih =>
      have hp : (fromRational p q : PerThing accuracy).parts * q ≤ accuracy * p :=
        fromRational_parts_mul_le p q
      rw [List.map_cons, List.sum_cons, List.sum_cons, Nat.add_mul, Nat.mul_add]
      omega

/-- **The parts of a whole, each rounded down, make at most one.** -/
theorem sum_fromRational_parts_le {ps : List ℕ} {q : ℕ} (h : ps.sum ≤ q) :
    (ps.map fun p => (fromRational p q : PerThing accuracy).parts).sum ≤ accuracy := by
  rcases Nat.eq_zero_or_pos q with hq | hq
  · have hall : ∀ p ∈ ps, p = 0 := by
      intro p hp
      have hle : p ≤ ps.sum := List.single_le_sum (fun _ _ => Nat.zero_le _) p hp
      omega
    have hzero : (ps.map fun p => (fromRational p q : PerThing accuracy).parts).sum = 0 := by
      refine List.sum_eq_zero fun x hx => ?_
      obtain ⟨p, hp, rfl⟩ := List.mem_map.mp hx
      rw [hall p hp, fromRational_zero_parts]
    omega
  · have hmul : (ps.map fun p => (fromRational p q : PerThing accuracy).parts).sum * q
        ≤ accuracy * ps.sum := sum_parts_mul_le ps q
    have hbound : accuracy * ps.sum ≤ accuracy * q := Nat.mul_le_mul_left accuracy h
    exact Nat.le_of_mul_le_mul_right (hmul.trans hbound) hq

private theorem sum_mul_le_parts (xs : List (PerThing accuracy)) (n : ℕ) :
    2 * (accuracy * (xs.map fun x => x.mul n).sum)
      ≤ 2 * ((xs.map parts).sum * n) + accuracy * xs.length := by
  induction xs with
  | nil => simp
  | cons x xs ih =>
      have hx := x.mul_le n
      simp only [List.map_cons, List.sum_cons, List.length_cons, Nat.mul_add, Nat.add_mul,
        Nat.mul_one] at ih ⊢
      omega

/-- **Shares whose parts make at most one make at most the amount**, up to half a unit each. -/
theorem sum_mul_le {xs : List (PerThing accuracy)} (haccuracy : 0 < accuracy)
    (h : (xs.map parts).sum ≤ accuracy) (n : ℕ) :
    2 * (xs.map fun x => x.mul n).sum ≤ 2 * n + xs.length := by
  have hsum := sum_mul_le_parts xs n
  have hpart : (xs.map parts).sum * n ≤ accuracy * n := Nat.mul_le_mul_right n h
  refine Nat.le_of_mul_le_mul_left ?_ haccuracy
  calc accuracy * (2 * (xs.map fun x => x.mul n).sum)
      = 2 * (accuracy * (xs.map fun x => x.mul n).sum) := by ring
    _ ≤ 2 * (accuracy * n) + accuracy * xs.length := by omega
    _ = accuracy * (2 * n + xs.length) := by ring

end PerThing
