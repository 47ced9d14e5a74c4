import Setheum.RewardCurve.Points

/-!
# The declaration of the reward curve

From the tokens of its arguments the macro generates the points of a curve in billionths and the
maximum of their inflation. The points of a `Curve` are all below one, so that nothing is refused
or cut off here; the one panic that is left is that of a walk that overshoots.

* `generate_eq` — the declaration of a curve.
* `build_outcome` — what the macro makes of any tokens.
-/

set_option autoImplicit false

namespace Setheum.RewardCurve

open Checked List

/-- A point in billionths. -/
def perbill (p : Point) : Point := (p.1 * 1000, p.2 * 1000)

theorem perbillOf_eq {n : ℕ} (hn : n ≤ 1000000) : perbillOf n = some (n * 1000) := by
  unfold perbillOf u32Size
  rw [if_pos (by omega)]

theorem fromParts_eq {n : ℕ} (hn : n ≤ 1000000) : fromParts (n * 1000) = n * 1000 := by
  unfold fromParts
  omega

theorem generatePoint_eq {p : Point} (hx : p.1 ≤ 1000000) (hy : p.2 ≤ 1000000) :
    generatePoint p = .ok (perbill p) := by
  unfold generatePoint
  rw [perbillOf_eq hx, perbillOf_eq hy]
  show (.ok (fromParts (p.1 * 1000), fromParts (p.2 * 1000)) : Runs Point) = _
  rw [fromParts_eq hx, fromParts_eq hy]
  rfl

theorem mapM_generatePoint {points : List Point}
    (h : ∀ p ∈ points, p.1 ≤ 1000000 ∧ p.2 ≤ 1000000) :
    points.mapM generatePoint = .ok (points.map perbill) := by
  induction points with
  | nil => rfl
  | cons p points ih =>
      obtain ⟨hx, hy⟩ := h p List.mem_cons_self
      rw [List.mapM_cons, generatePoint_eq hx hy, ih fun q hq => h q (List.mem_cons_of_mem p hq)]
      rfl

namespace Curve

variable {input : INposInput} (c : Curve input)

/-- The maximal inflation is reached, and not exceeded. -/
theorem mem_points_le {p : Point} (hv : input.Valid) (hp : p ∈ c.points) :
    p.1 ≤ 1000000 ∧ p.2 ≤ input.maxInflation := by
  have hmin := hv.minInflation_lt
  rcases List.mem_append.mp hp with hp | hp
  · rcases List.mem_cons.mp hp with rfl | hp
    · exact ⟨Nat.zero_le _, hmin.le⟩
    · obtain ⟨-, hx, -, hy⟩ := c.placed p hp
      exact ⟨hx.le, hy⟩
  · obtain rfl := List.mem_singleton.mp hp
    refine ⟨le_refl _, ?_⟩
    have hne : c.trail ≠ [] := by
      intro hnil
      have hstarts := c.starts
      rw [hnil] at hstarts
      cases hstarts
    have hlast := c.final_lt _ (List.getLast?_eq_some_getLast hne)
    obtain ⟨-, -, -, hy⟩ := c.placed _ (List.getLast_mem hne)
    exact hlast.le.trans hy

theorem max_inflation (hv : input.Valid) :
    (c.points.map Prod.snd).max? = some input.maxInflation := by
  rw [List.max?_eq_some_iff]
  refine ⟨List.mem_map.mpr ⟨(input.idealStake, input.maxInflation), ?_, rfl⟩, ?_⟩
  · exact List.mem_append_left _ (List.mem_cons_of_mem _ (List.mem_of_head? c.starts))
  · intro y hy
    obtain ⟨p, hp, rfl⟩ := List.mem_map.mp hy
    exact (c.mem_points_le hv hp).2

/-- What is declared for a curve. -/
def declaration : PiecewiseLinear := ⟨c.points.map perbill, input.maxInflation * 1000⟩

theorem generate_eq (hv : input.Valid) :
    generatePiecewiseLinear c.points = .ok c.declaration := by
  have hmax := hv.maxInflation_le
  have hpoints := mapM_generatePoint fun p hp =>
    (c.mem_points_le hv hp).imp_right fun hy => hy.trans hmax
  unfold generatePiecewiseLinear
  rw [c.max_inflation hv, Option.getD_some, perbillOf_eq hmax, Option.getD_some, hpoints, ok_bind,
    fromParts_eq hmax]
  rfl

end Curve

theorem build_of_error {tokens : List Token} {e : ParseError} (b : Build)
    (h : INposInput.parse tokens = .error e) : build b tokens = .error e := by
  rw [build, h]
  rfl

theorem build_of_ok {tokens : List Token} {input : INposInput} (b : Build)
    (h : INposInput.parse tokens = .ok input) :
    build b tokens = .ok (computePoints b input >>= generatePiecewiseLinear) := by
  rw [build, h]
  rfl

/-- **Whatever its tokens, the macro reports what is wrong with its parameters, declares a curve, or
panics because the walk overshoots; a macro that was built otherwise does the same.** -/
theorem build_outcome (b b' : Build) (tokens : List Token) :
    ((∃ e, INposInput.parse tokens = .error e ∧ build b tokens = .error e) ∨
      ∃ input, INposInput.parse tokens = .ok input ∧ input.Valid ∧
        (build b tokens = .ok panicked ∧ input.Overshoots b ∨
          (∃ c : Curve input, build b tokens = .ok (.ok c.declaration)) ∧ ¬ input.Overshoots b)) ∧
    build b' tokens = build b tokens := by
  cases hparse : INposInput.parse tokens with
  | error e =>
      rw [build_of_error b hparse, build_of_error b' hparse]
      exact ⟨.inl ⟨e, rfl, rfl⟩, rfl⟩
  | ok input =>
      have hv := (INposInput.parse_eq_ok_iff.mp hparse).1
      rw [build_of_ok b hparse, build_of_ok b' hparse, hv.computePoints_congr b' b]
      refine ⟨.inr ⟨input, rfl, hv, ?_⟩, rfl⟩
      rcases hv.curve_or_overshoots b with ⟨hpanic, hover⟩ | ⟨⟨c, hcurve⟩, hover⟩
      · refine .inl ⟨?_, hover⟩
        rw [hpanic, panicked_bind]
      · refine .inr ⟨⟨c, ?_⟩, hover⟩
        rw [hcurve, ok_bind, c.generate_eq hv]

end Setheum.RewardCurve
