import Mathlib
import Setheum.RewardCurve.Points

/-!
# The points of the reward curve and the ideal curve

Beyond the ideal stake the ideal inflation halves its distance to the minimal one with each falloff.
A point of the walk is not above the ideal curve, and above it where its stake is moved by seven and
a half millionths, which is what the logarithm and the two divisions lose. As the curve falls, a
piece between two points stays within the greatest height of a piece of it. Where the walk gives up
before a stake of one, nothing is said of the piece that ends the curve.

* `position_near` — the stake that is computed for an inflation.
* `Curve.near_ideal` — points and pieces.
-/

set_option autoImplicit false

namespace Setheum.RewardCurve

open List

variable {input : INposInput}

/-- The ideal inflation at a stake that is not below the ideal one. -/
noncomputable def INposInput.ideal (input : INposInput) (x : ℝ) : ℝ :=
  input.minInflation
    + (input.maxInflation - input.minInflation)
      * ((2 : ℕ) : ℝ) ^ ((input.idealStake - x) / input.falloff)

/-- The stake at which the ideal inflation is `y`. -/
noncomputable def INposInput.idealPosition (input : INposInput) (y : ℕ) : ℝ :=
  input.idealStake + input.falloff
    * (realLog (input.maxInflation - input.minInflation) (y - input.minInflation) / (million : ℕ))

theorem INposInput.Valid.ideal_strictAnti (hv : input.Valid) : StrictAnti input.ideal := by
  intro x x' hx
  have hfalloff : (0 : ℝ) < input.falloff := by
    have := hv.falloff_ge
    exact_mod_cast (by omega : 0 < input.falloff)
  have hrange : (0 : ℝ) < input.maxInflation - input.minInflation := by
    rw [sub_pos]
    exact_mod_cast hv.minInflation_lt
  have hexponent : (input.idealStake - x') / input.falloff
      < ((input.idealStake : ℝ) - x) / input.falloff := by
    gcongr
  have hpow := Real.rpow_lt_rpow_of_exponent_lt one_lt_two hexponent
  unfold ideal
  rw [Nat.cast_ofNat]
  nlinarith

/-- The two are inverse to each other. -/
theorem INposInput.Valid.ideal_idealPosition (hv : input.Valid) {y : ℕ}
    (hy : input.minInflation < y) : input.ideal (input.idealPosition y) = y := by
  have hfalloff : (input.falloff : ℝ) ≠ 0 := by
    have := hv.falloff_ge
    exact_mod_cast (by omega : input.falloff ≠ 0)
  have hp : (0 : ℝ) < (input.maxInflation - input.minInflation : ℕ) := by
    have := hv.minInflation_lt
    exact_mod_cast (by omega : 0 < input.maxInflation - input.minInflation)
  have hq : (0 : ℝ) < (y - input.minInflation : ℕ) := by
    exact_mod_cast (by omega : 0 < y - input.minInflation)
  have hexponent : ((input.idealStake : ℝ) - input.idealPosition y) / input.falloff
      = -Real.logb 2 (((input.maxInflation - input.minInflation : ℕ) : ℝ)
        / (y - input.minInflation : ℕ)) := by
    unfold idealPosition realLog million
    push_cast
    field_simp
    ring
  unfold ideal
  rw [hexponent, Nat.cast_ofNat, Real.rpow_neg zero_le_two, Real.rpow_logb two_pos (by norm_num) (by positivity),
    inv_div, ← Nat.cast_sub hv.minInflation_lt.le, mul_div_cancel₀ _ hp.ne', Nat.cast_sub hy.le]
  ring

/-- The stake that is computed is not beyond the ideal one, and short of it by less than seven and a
half millionths. -/
theorem INposInput.Valid.position_near (hv : input.Valid) {y : ℕ} (hy : input.minInflation < y)
    (hmax : y ≤ input.maxInflation) :
    (input.position y : ℝ) ≤ input.idealPosition y ∧
      input.idealPosition y < input.position y + 15 / 2 := by
  obtain ⟨hlow, hhigh⟩ := logarithm_near (by omega) (isExponent_of_mem hy hmax)
  have hideal : input.idealPosition y = input.idealStake + input.falloff
      * realLog (input.maxInflation - input.minInflation) (y - input.minInflation) / 1000000 := by
    unfold idealPosition million
    push_cast
    ring
  have hfalloff : (input.falloff : ℝ) ≤ 1000000 := by exact_mod_cast hv.falloff_le
  have hfalloff0 : (0 : ℝ) ≤ input.falloff := Nat.cast_nonneg _
  have hdown : ((input.falloff * input.logAt y / 1000000 : ℕ) : ℝ)
      ≤ input.falloff * input.logAt y / 1000000 := by
    have := @Nat.cast_div_le ℝ _ _ _ (input.falloff * input.logAt y) 1000000
    push_cast at this
    exact this
  have hup : ((input.falloff : ℝ) * input.logAt y) / 1000000
      < (input.falloff * input.logAt y / 1000000 : ℕ) + 1 := by
    have := RoundedProducts.div_lt_floor_add_one (K := ℝ) (input.falloff * input.logAt y)
      (by decide : 0 < 1000000)
    push_cast at this
    exact this
  have hscaledLow := mul_le_mul_of_nonneg_left hlow hfalloff0
  have hscaledHigh := mul_le_mul_of_nonneg_left hhigh.le hfalloff0
  rw [hideal]
  unfold position
  push_cast [logAt] at *
  constructor <;> linarith

/-- The line between two points. -/
noncomputable def interpolate (p q : Point) (x : ℝ) : ℝ :=
  AffineMap.lineMap (p.2 : ℝ) (q.2 : ℝ) ((x - p.1) / (q.1 - p.1))

theorem interpolate_mem {p q : Point} {x : ℝ} (hy : q.2 ≤ p.2) (hp : (p.1 : ℝ) ≤ x)
    (hq : x ≤ q.1) : (q.2 : ℝ) ≤ interpolate p q x ∧ interpolate p q x ≤ p.2 := by
  have hy' : (q.2 : ℝ) ≤ p.2 := by exact_mod_cast hy
  have hnonneg : 0 ≤ (x - p.1) / ((q.1 : ℝ) - p.1) := div_nonneg (by linarith) (by linarith)
  have hone : (x - p.1) / ((q.1 : ℝ) - p.1) ≤ 1 :=
    div_le_one_of_le₀ (by linarith) (by linarith)
  unfold interpolate
  rw [AffineMap.lineMap_apply_ring']
  constructor <;> nlinarith

/-- A point that is computed is not above the ideal curve, and above it a little further on. -/
theorem INposInput.Valid.point_near (hv : input.Valid) {p : Point} (hplace : p = input.pointAt p.2)
    (hmin : input.minInflation < p.2) (hmax : p.2 ≤ input.maxInflation) :
    input.ideal (p.1 + 15 / 2) < p.2 ∧ (p.2 : ℝ) ≤ input.ideal p.1 := by
  have hx : p.1 = input.position p.2 := congrArg Prod.fst hplace
  obtain ⟨hlow, hhigh⟩ := hv.position_near hmin hmax
  rw [← hx] at hlow hhigh
  have hvalue := hv.ideal_idealPosition hmin
  refine ⟨?_, ?_⟩
  · calc input.ideal (p.1 + 15 / 2) < input.ideal (input.idealPosition p.2) :=
          hv.ideal_strictAnti hhigh
      _ = p.2 := hvalue
  · calc (p.2 : ℝ) = input.ideal (input.idealPosition p.2) := hvalue.symm
      _ ≤ input.ideal p.1 := hv.ideal_strictAnti.antitone hlow

variable (c : Curve input)

/-- The pieces beyond the ideal stake, without the last one where the walk gives up before a stake
of one: that leads down to the minimal inflation wherever the ideal curve is. -/
def Curve.Piece (p q : Point) : Prop :=
  [p, q] <:+: c.trail ∨
    c.final ≠ input.minInflation ∧ p ∈ c.trail.getLast? ∧ q = (1000000, c.final)

variable {c} in
/-- A piece leads from a point of the walk to the next point that is computed, or is cut short on
the way there. -/
theorem Curve.Piece.toward {p r : Point} (h : c.Piece p r) :
    p ∈ c.trail ∧ ∃ q, q = input.pointAt q.2 ∧ input.minInflation < q.2 ∧
      Falls input.pieceLength p q ∧ r.1 ≤ q.1 ∧ q.2 ≤ r.2 ∧ r.2 < p.2 := by
  rcases h with hpiece | ⟨hcut, hp, rfl⟩
  · have hfalls : Falls input.pieceLength p r := by
      simpa using c.falls.infix hpiece
    obtain ⟨hplace, -, hmin, -⟩ :=
      c.placed r (hpiece.subset (List.mem_cons_of_mem p List.mem_cons_self))
    exact ⟨hpiece.subset List.mem_cons_self, r, hplace, hmin, hfalls, le_refl _, le_refl _,
      hfalls.y_lt⟩
  · obtain ⟨q, hplace, hmin, hfalls, hx, hy⟩ := c.ends.resolve_left hcut p hp
    exact ⟨List.mem_of_getLast? hp, q, hplace, hmin, hfalls, hx, hy, c.final_lt p hp⟩

/-- **For parameters within their bounds the points of the walk are on the ideal curve, to within
seven and a half millionths of stake, and its pieces to within the greatest height of a piece; so is
the last piece, if it is cut at a stake of one.** -/
theorem Curve.near_ideal (hv : input.Valid) :
    (∀ p ∈ c.trail, input.ideal (p.1 + 15 / 2) < p.2 ∧ (p.2 : ℝ) ≤ input.ideal p.1) ∧
    ∀ p r : Point, c.Piece p r → ∀ x : ℝ, (p.1 : ℝ) ≤ x → x ≤ r.1 →
      input.ideal (x + 15 / 2) - input.pieceLength < interpolate p r x ∧
        interpolate p r x ≤ input.ideal x + input.pieceLength := by
  have hpoint : ∀ p ∈ c.trail,
      input.ideal (p.1 + 15 / 2) < p.2 ∧ (p.2 : ℝ) ≤ input.ideal p.1 := by
    intro p hp
    obtain ⟨hplace, -, hmin, hmax⟩ := c.placed p hp
    exact hv.point_near hplace hmin hmax
  refine ⟨hpoint, fun p r hpiece x hp hr => ?_⟩
  obtain ⟨htrail, q, hplace, hmin, hfalls, hx, hy, hlt⟩ := hpiece.toward
  have hmax : q.2 ≤ input.maxInflation :=
    hfalls.y_lt.le.trans (c.placed p htrail).2.2.2
  have hheight : (p.2 : ℝ) ≤ q.2 + input.pieceLength := by exact_mod_cast hfalls.y_near
  have hcut : (q.2 : ℝ) ≤ r.2 := by exact_mod_cast hy
  have hbeyond : (r.1 : ℝ) ≤ q.1 := by exact_mod_cast hx
  obtain ⟨hlow, hhigh⟩ := interpolate_mem hlt.le hp hr
  obtain ⟨hfirst, -⟩ := hpoint p htrail
  obtain ⟨-, hsecond⟩ := hv.point_near hplace hmin hmax
  have hleft : input.ideal (x + 15 / 2) ≤ input.ideal (p.1 + 15 / 2) :=
    hv.ideal_strictAnti.antitone (by linarith)
  have hright : input.ideal q.1 ≤ input.ideal x := hv.ideal_strictAnti.antitone (by linarith)
  exact ⟨by linarith, by linarith⟩

theorem near_ideal_runtime : ∃ c : Curve .runtime,
    computePoints hostDebug .runtime = .ok c.points ∧
    (∀ p ∈ c.trail, INposInput.runtime.ideal (p.1 + 15 / 2) < p.2 ∧
      (p.2 : ℝ) ≤ INposInput.runtime.ideal p.1) ∧
    ∀ p r : Point, c.Piece p r → ∀ x : ℝ, (p.1 : ℝ) ≤ x → x ≤ r.1 →
      INposInput.runtime.ideal (x + 15 / 2) - INposInput.runtime.pieceLength < interpolate p r x ∧
        interpolate p r x ≤ INposInput.runtime.ideal x + INposInput.runtime.pieceLength := by
  obtain ⟨c, hc⟩ := exists_runtime_curve hostDebug
  exact ⟨c, hc, c.near_ideal INposInput.runtime_valid⟩

end Setheum.RewardCurve
