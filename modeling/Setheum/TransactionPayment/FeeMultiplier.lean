import Setheum.Lib.FixedPoint

/-!
# The fee multiplier

At the end of a block the multiplier of weight fees is moved towards a target: up if the block was
at least as full as the target, and else down, by a first and a second order term of the distance.
All terms saturate; what may panic is a 64-bit overflow or a division, and that ends in `none`.

* `convert_bounds` — the next multiplier exists, is at least the minimum and has moved the right
  way.
-/

set_option autoImplicit false

namespace Setheum.TransactionPayment

/-- A multiplier, as its inner value. -/
abbrev Multiplier := {n : ℕ // n ≤ Balance.maxValue}

/-- The constants `S`, `V` and `M`, and the limits of a block. -/
structure TargetedFeeAdjustment where
  /-- The part of the normal capacity that a block should fill. -/
  target : ℕ
  target_le : target ≤ Perquintill.accuracy
  variability : Multiplier
  minMultiplier : Multiplier
  /-- `max_total` of the normal class. -/
  normalMaxTotal : Option ℕ
  maxBlock : ℕ
  maxBlock_lt : normalMaxTotal.getD maxBlock < U64.size

namespace TargetedFeeAdjustment

variable (cfg : TargetedFeeAdjustment)

def normalMaxWeight : ℕ := cfg.normalMaxTotal.getD cfg.maxBlock

/-- The multiplier after a block whose normal class weighs so much. -/
def convert (normalWeight previous : ℕ) : Option ℕ := do
  let previous := max previous cfg.minMultiplier
  let blockWeight := min normalWeight cfg.normalMaxWeight
  let targetWeight ← Perquintill.mul cfg.target cfg.normalMaxWeight
  let diffAbs := max blockWeight targetWeight - min blockWeight targetWeight
  let diff ← FixedU128.saturatingFromRational diffAbs (max cfg.normalMaxWeight 1)
  let diffSquared := FixedU128.saturatingMul diff diff
  let vSquared2 ← FixedU128.checkedDiv
    (FixedU128.saturatingMul cfg.variability cfg.variability) (FixedU128.saturatingFromInteger 2)
  let firstTerm := FixedU128.saturatingMul cfg.variability diff
  let secondTerm := FixedU128.saturatingMul vSquared2 diffSquared
  if targetWeight ≤ blockWeight then
    let excess := FixedU128.saturatingMul (Balance.saturatingAdd firstTerm secondTerm) previous
    pure (max (Balance.saturatingAdd previous excess) cfg.minMultiplier)
  else
    let negative := FixedU128.saturatingMul (firstTerm - secondTerm) previous
    pure (max (previous - negative) cfg.minMultiplier)

/-- The target exists, and a block can reach it. -/
theorem targetWeight_le :
    ∃ targetWeight, Perquintill.mul cfg.target cfg.normalMaxWeight = some targetWeight ∧
      targetWeight ≤ cfg.normalMaxWeight :=
  Perquintill.mul_le cfg.target_le cfg.maxBlock_lt

/-- **The next multiplier exists for every block and every multiplier, is at least the minimum, and
is no smaller than before if the block reached the target and no larger if it did not.** -/
theorem convert_bounds (normalWeight : ℕ) (previous : Multiplier) :
    ∃ targetWeight next : ℕ,
      Perquintill.mul cfg.target cfg.normalMaxWeight = some targetWeight ∧
      cfg.convert normalWeight previous = some next ∧
      cfg.minMultiplier ≤ next ∧ next ≤ Balance.maxValue ∧
      (targetWeight ≤ normalWeight → max ↑previous ↑cfg.minMultiplier ≤ next) ∧
      (normalWeight < targetWeight → next ≤ max ↑previous ↑cfg.minMultiplier) := by
  obtain ⟨targetWeight, htarget, hle⟩ := cfg.targetWeight_le
  obtain ⟨vSquared2, hv, -⟩ := FixedU128.checkedDiv_of_accuracy_le
    (FixedU128.saturatingMul_le cfg.variability cfg.variability)
    (by decide : FixedU128.accuracy ≤ FixedU128.saturatingFromInteger 2)
  have hprevious : max (previous : ℕ) cfg.minMultiplier ≤ Balance.maxValue :=
    max_le previous.2 cfg.minMultiplier.2
  have hcapped : targetWeight ≤ min normalWeight cfg.normalMaxWeight ↔
      targetWeight ≤ normalWeight := by omega
  have hdivisor : max cfg.normalMaxWeight 1 ≠ 0 := by omega
  simp only [convert, htarget, hv, FixedU128.saturatingFromRational, if_neg hdivisor,
    Option.bind_eq_bind, Option.bind_some, hcapped]
  refine ⟨targetWeight, ?_⟩
  by_cases hreached : targetWeight ≤ normalWeight
  · rw [if_pos hreached]
    refine ⟨_, rfl, rfl, le_max_right _ _, max_le (min_le_right _ _) cfg.minMultiplier.2,
      fun _ => ?_, fun hbelow => absurd hreached (by omega)⟩
    exact (le_min (Nat.le_add_right _ _) hprevious).trans (le_max_left _ _)
  · rw [if_neg hreached]
    refine ⟨_, rfl, rfl, le_max_right _ _,
      max_le ((Nat.sub_le _ _).trans hprevious) cfg.minMultiplier.2,
      fun habove => absurd habove hreached, fun _ => ?_⟩
    exact max_le (Nat.sub_le _ _) (le_max_right _ _)

/-- The constants of the runtimes: blocks of one second of which the normal class may take three
quarters, and a quarter of that as the target. -/
def runtime : TargetedFeeAdjustment where
  target := 25 * 10 ^ 16
  target_le := by decide
  variability := ⟨3 * 10 ^ 13, by decide⟩
  minMultiplier := ⟨10 ^ 9, by decide⟩
  normalMaxTotal := some (75 * 10 ^ 10)
  maxBlock := 10 ^ 12
  maxBlock_lt := by decide

/-- A full block does not lower the multiplier of one. -/
theorem convert_bounds_runtime :
    ∃ next, runtime.convert (75 * 10 ^ 10) (10 ^ 18) = some next ∧ 10 ^ 18 ≤ next := by
  obtain ⟨targetWeight, next, htarget, hnext, -, -, hraised, -⟩ :=
    runtime.convert_bounds (75 * 10 ^ 10) ⟨10 ^ 18, by decide⟩
  have htarget' : Perquintill.mul runtime.target runtime.normalMaxWeight
      = some (1875 * 10 ^ 8) := by decide +kernel
  rw [htarget'] at htarget
  cases htarget
  exact ⟨next, hnext, (le_max_left _ _).trans (hraised (by decide))⟩

end TargetedFeeAdjustment

end Setheum.TransactionPayment
