import Mathlib.Data.List.Chain
import Setheum.RewardCurve.Accuracy
import Setheum.RewardCurve.Parameters

/-!
# The points of the reward curve

For parameters within their bounds the walk down the curve either finds a `Curve`, whose points fall
from the ideal stake in pieces that are not too high or wide, or it takes the height of a step from
an inflation that is smaller, and panics. Nothing else in the macro can panic, and how it was built
makes no difference. The last piece is cut at a stake of one, or leads from where the walk gives up
to the minimal inflation: that one may be of any size.

* `Walk.step_eq` — a pass of the loop, and `Walk.Sound.next`, what it keeps.
* `computePoints_outcome` — the points for all parameters within their bounds.
-/

set_option autoImplicit false

namespace Setheum.RewardCurve

open Checked List

namespace INposInput

variable {input : INposInput} {b : Build}

/-- The greatest height and width of a piece. -/
def pieceLength (input : INposInput) : ℕ :=
  (input.maxInflation - input.minInflation + 1000000 - input.idealStake)
    / (input.maxPieceCount - 1)

theorem Valid.pieceLength_le (hv : input.Valid) : input.pieceLength ≤ 1900000 := by
  refine (Nat.div_le_self _ _).trans ?_
  have := hv.maxInflation_le
  have := hv.idealStake_ge
  omega

theorem Valid.maxLength_eq (hv : input.Valid) : maxLength b input = .ok input.pieceLength := by
  have hmin := hv.minInflation_lt
  have hmax := hv.maxInflation_le
  have hideal := hv.idealStake_le
  have hcount := hv.maxPieceCount_ge
  have hfits : input.maxInflation - input.minInflation + 1000000 < u32Size := by
    unfold u32Size
    omega
  rw [maxLength, Build.sub_of_le hmin.le, ok_bind, Build.add, Build.fit_of_lt hfits, ok_bind,
    Build.sub_of_le (by omega), ok_bind, Build.sub_of_le (by omega), ok_bind, div,
    if_neg (by omega)]
  rfl

/-- The logarithm that places the inflation `y`. -/
def logAt (input : INposInput) (y : ℕ) : ℕ :=
  logarithm (input.maxInflation - input.minInflation) (y - input.minInflation)
    (exponent (input.maxInflation - input.minInflation) (y - input.minInflation))

/-- The stake at which the curve has the inflation `y`, as the source computes it. -/
def position (input : INposInput) (y : ℕ) : ℕ :=
  input.idealStake + input.falloff * input.logAt y / 1000000

/-- The parameters of the curve. -/
def inpos (input : INposInput) : INPoS :=
  ⟨input.minInflation, input.maxInflation, input.maxInflation * million / input.idealStake,
    input.idealStake, input.falloff⟩

theorem Valid.fromInput_eq (hv : input.Valid) : INPoS.fromInput input = .ok input.inpos := by
  have hideal := hv.idealStake_ge
  have hfits : input.maxInflation * million / input.idealStake < u32Size := by
    refine lt_of_le_of_lt (Nat.div_le_div_left hideal (by decide)) ?_
    have hmul := Nat.mul_le_mul_right million hv.maxInflation_le
    refine lt_of_le_of_lt (Nat.div_le_div_right hmul) (by decide)
  rw [INPoS.fromInput, div, if_neg (by omega), ok_bind, intoU32, if_pos hfits]
  rfl

/-- The logarithm of a fraction of numbers up to a million. -/
theorem logarithm_le {p q n : ℕ} (hq : 0 < q) (hp : p ≤ 1000000) (hn : IsExponent p q n) :
    logarithm p q n ≤ 40000000 := by
  have hsmall := hn.lt_twenty hq hp
  have hthird := hn.third
  have hsum := sumOfTerms_le (by omega : p - 2 ^ n * q ≤ p + 2 ^ n * q) 6
  unfold logarithm
  unfold twoDivLn2 at hsum
  omega

theorem isExponent_of_mem {y : ℕ} (hy : input.minInflation < y) (hmax : y ≤ input.maxInflation) :
    IsExponent (input.maxInflation - input.minInflation) (y - input.minInflation)
      (exponent (input.maxInflation - input.minInflation) (y - input.minInflation)) :=
  isExponent_exponent (by omega) (by omega)

theorem Valid.logAt_le (hv : input.Valid) {y : ℕ} (hy : input.minInflation < y)
    (hmax : y ≤ input.maxInflation) : input.logAt y ≤ 40000000 :=
  logarithm_le (by omega) (by have := hv.maxInflation_le; omega) (isExponent_of_mem hy hmax)

/-- A stake on the curve has 32 bits. -/
theorem Valid.position_lt (hv : input.Valid) {y : ℕ} (hy : input.minInflation < y)
    (hmax : y ≤ input.maxInflation) : input.position y ≤ 40900000 := by
  have hmul := Nat.mul_le_mul hv.falloff_le (hv.logAt_le hy hmax)
  have hdiv : input.falloff * input.logAt y / 1000000 ≤ 40000000 :=
    Nat.div_le_of_le_mul hmul
  have hideal := hv.idealStake_le
  unfold position
  omega

/-- The curve is computed where it lies above the minimal inflation. -/
theorem Valid.computeOpposite_eq (hv : input.Valid) {y : ℕ} (hy : input.minInflation < y)
    (hmax : y ≤ input.maxInflation) :
    input.inpos.computeOppositeAfterXIdeal b y = .ok (input.position y) := by
  have hposition := hv.position_lt hy hmax
  have hmin := hv.minInflation_lt
  have hle := hv.maxInflation_le
  have hfits : input.position y < u32Size := lt_of_le_of_lt hposition (by decide)
  have hterm : input.falloff * input.logAt y / 1000000 < u32Size :=
    lt_of_le_of_lt (Nat.le_add_left _ _) hfits
  have hlog : log2 b (input.maxInflation - input.minInflation) (y - input.minInflation)
      = .ok (input.logAt y) :=
    log2_eq (by omega) (by omega) (by omega) (isExponent_of_mem hy hmax)
  unfold INPoS.computeOppositeAfterXIdeal inpos
  rw [if_neg (ne_of_gt hy), Build.sub_of_le hmin.le, ok_bind, Build.sub_of_le hy.le, ok_bind, hlog,
    ok_bind, intoU32, if_pos hterm, ok_bind]
  exact Build.fit_of_lt hfits

/-- A lower inflation is found at no smaller stake. -/
theorem position_antitone {y y' : ℕ} (hy : input.minInflation < y')
    (hle : y' ≤ y) (hmax : y ≤ input.maxInflation) : input.position y ≤ input.position y' := by
  have hlog : input.logAt y ≤ input.logAt y' :=
    logarithm_antitone (by omega) (by omega) (isExponent_of_mem (by omega) hmax)
      (isExponent_of_mem hy (by omega))
  exact Nat.add_le_add_left (Nat.div_le_div_right (Nat.mul_le_mul_left _ hlog)) _

/-- The maximal inflation is at the ideal stake. -/
theorem Valid.position_max (hv : input.Valid) :
    input.position input.maxInflation = input.idealStake := by
  have hmin := hv.minInflation_lt
  have hzero : exponent (input.maxInflation - input.minInflation)
      (input.maxInflation - input.minInflation) = 0 := by
    rw [exponent, Nat.div_self (by omega)]
    decide
  unfold position logAt
  rw [hzero, logarithm, pow_zero, Nat.one_mul, Nat.sub_self, sumOfTerms_eq_of_zero (k := 0)
    (Nat.zero_le _) (by simp [term]) (Nat.zero_le _), sumOfTerms_zero]
  simp

end INposInput

/-! ## Curves -/

/-- A piece of the curve is not too high or wide, and falls. -/
structure Falls (length : ℕ) (p q : Point) : Prop where
  x_le : p.1 ≤ q.1
  x_near : q.1 ≤ p.1 + length
  y_lt : q.2 < p.2
  y_near : p.2 ≤ q.2 + length

/-- The point of the curve with the inflation `y`. -/
def INposInput.pointAt (input : INposInput) (y : ℕ) : Point := (input.position y, y)

@[simp] theorem INposInput.pointAt_fst (input : INposInput) (y : ℕ) :
    (input.pointAt y).1 = input.position y := rfl

@[simp] theorem INposInput.pointAt_snd (input : INposInput) (y : ℕ) :
    (input.pointAt y).2 = y := rfl

/-- The last piece is cut at a stake of one, short of the next point of the curve. -/
def Cut (input : INposInput) (p : Point) (final : ℕ) : Prop :=
  ∃ q, q = input.pointAt q.2 ∧ input.minInflation < q.2 ∧ Falls input.pieceLength p q ∧
    1000000 ≤ q.1 ∧ q.2 ≤ final

/-- What the points of a reward curve are: the minimal inflation without stake, the trail from the
ideal stake down, and the inflation at a stake of one. That is the minimal one where the walk gives
up before it comes there, however far off the end of the trail is. -/
structure Curve (input : INposInput) where
  trail : List Point
  final : ℕ
  starts : trail.head? = some (input.idealStake, input.maxInflation)
  falls : trail.IsChain (Falls input.pieceLength)
  placed : ∀ p ∈ trail, p = input.pointAt p.2 ∧ p.1 < 1000000 ∧ input.minInflation < p.2 ∧
    p.2 ≤ input.maxInflation
  final_ge : input.minInflation ≤ final
  final_lt : ∀ p ∈ trail.getLast?, final < p.2
  ends : final = input.minInflation ∨ ∀ p ∈ trail.getLast?, Cut input p final

def Curve.points {input : INposInput} (c : Curve input) : List Point :=
  (0, input.minInflation) :: c.trail ++ [(1000000, c.final)]

/-! ## The walk -/

namespace Walk

variable {input : INposInput} {b : Build}

/-- The invariant of the loop. -/
structure Sound (input : INposInput) (walk : Walk) : Prop where
  shape : ∃ trail : List Point, walk.points = (0, input.minInflation) :: trail ∧
    trail.head? = some (input.idealStake, input.maxInflation) ∧
    trail.getLast? = some (input.pointAt walk.y) ∧
    trail.IsChain (Falls input.pieceLength) ∧
    ∀ p ∈ trail, p = input.pointAt p.2 ∧ p.1 < 1000000 ∧ input.minInflation < p.2 ∧
      p.2 ≤ input.maxInflation
  deltaY_le : walk.deltaY ≤ input.pieceLength

/-- What the walk has reached is on the curve. -/
theorem Sound.reached {walk : Walk} (hs : walk.Sound input) :
    walk.points.getLast? = some (input.pointAt walk.y) ∧ input.position walk.y < 1000000 ∧
      input.minInflation < walk.y ∧ walk.y ≤ input.maxInflation := by
  obtain ⟨trail, hpoints, hhead, hlast, -, hplaced⟩ := hs.shape
  obtain ⟨-, hx, hmin, hmax⟩ := hplaced _ (List.mem_of_getLast? hlast)
  refine ⟨?_, hx, hmin, hmax⟩
  rw [hpoints, List.getLast?_cons, hlast]
  rfl

/-- A pass of the loop whose step is not higher than the inflation. -/
def next (input : INposInput) (walk : Walk) : Loop.Next Walk (List Point) :=
  if walk.deltaY = 0 then .done (walk.points ++ [(1000000, input.minInflation)])
  else if walk.y - walk.deltaY ≤ input.minInflation ∨ input.pieceLength
      < input.position (walk.y - walk.deltaY) - input.position walk.y then
    .again { walk with deltaY := walk.deltaY - 1 }
  else if 1000000 ≤ input.position (walk.y - walk.deltaY) then
    .done (walk.points ++ [(1000000, walk.y - walk.deltaY
      + (input.position (walk.y - walk.deltaY) - 1000000) * walk.deltaY
        / (input.position (walk.y - walk.deltaY) - input.position walk.y))])
  else
    .again ⟨walk.points ++ [input.pointAt (walk.y - walk.deltaY)], walk.deltaY,
      walk.y - walk.deltaY⟩

/-- The inflation at a stake of one is between those of two points. -/
theorem rise_lt (beyond width height : ℕ) (hbeyond : beyond < width) (hheight : 0 < height) :
    beyond * height / width < height := by
  rw [Nat.div_lt_iff_lt_mul (by omega), Nat.mul_comm height width]
  exact Nat.mul_lt_mul_of_pos_right hbeyond hheight

/-- **A pass, for every build.** -/
theorem step_eq (hv : input.Valid) {walk : Walk} (hs : walk.Sound input)
    (hle : walk.deltaY ≤ walk.y) :
    walk.step b input input.inpos input.pieceLength = .ok (walk.next input) := by
  obtain ⟨hlast, hx, hmin, hmax⟩ := hs.reached
  have hmaxle := hv.maxInflation_le
  unfold step next
  by_cases hzero : walk.deltaY = 0
  · rw [if_pos hzero, if_pos hzero]
    rfl
  · rw [if_neg hzero, if_neg hzero, Build.sub_of_le hle, ok_bind]
    by_cases hlow : walk.y - walk.deltaY ≤ input.minInflation
    · rw [if_pos hlow, if_pos (Or.inl hlow)]
      rfl
    · have hanti := input.position_antitone (by omega : input.minInflation < walk.y - walk.deltaY)
        (Nat.sub_le _ _) hmax
      have hposition := hv.position_lt (by omega : input.minInflation < walk.y - walk.deltaY)
        (by omega)
      rw [if_neg hlow, hv.computeOpposite_eq (by omega) (by omega), ok_bind, lastPoint, hlast,
        Option.elim_some, ok_bind, INposInput.pointAt_fst, INposInput.pointAt_snd,
        Build.sub_of_le hanti, ok_bind]
      by_cases hwide : input.pieceLength
          < input.position (walk.y - walk.deltaY) - input.position walk.y
      · rw [if_pos hwide, if_pos (Or.inr hwide)]
        rfl
      · have hkept : ¬ (walk.y - walk.deltaY ≤ input.minInflation ∨ input.pieceLength
            < input.position (walk.y - walk.deltaY) - input.position walk.y) :=
          not_or.mpr ⟨hlow, hwide⟩
        rw [if_neg hwide, if_neg hkept]
        by_cases hend : 1000000 ≤ input.position (walk.y - walk.deltaY)
        · have hrise := rise_lt (input.position (walk.y - walk.deltaY) - 1000000)
            (input.position (walk.y - walk.deltaY) - input.position walk.y) walk.deltaY
            (by omega) (by omega)
          have hheight : walk.y - (walk.y - walk.deltaY) = walk.deltaY := by omega
          have hfits : (input.position (walk.y - walk.deltaY) - 1000000) * walk.deltaY
              / (input.position (walk.y - walk.deltaY) - input.position walk.y) < u32Size := by
            unfold u32Size
            omega
          rw [if_pos hend, if_pos hend, Build.sub_of_le hend, ok_bind,
            Build.sub_of_le (Nat.sub_le _ _), ok_bind, hheight, div, if_neg (by omega), ok_bind,
            intoU32, if_pos hfits, ok_bind, Build.add, Build.fit_of_lt, ok_bind]
          · rfl
          · unfold u32Size
            omega
        · rw [if_neg hend, if_neg hend]
          rfl

/-- A step that is higher than the inflation panics: without overflow checks the logarithm is asked
of a fraction below one. -/
theorem step_panics (hv : input.Valid) {walk : Walk} (hs : walk.Sound input)
    (hlt : walk.y < walk.deltaY) :
    walk.step b input input.inpos input.pieceLength = panicked := by
  obtain ⟨-, -, hmin, hmax⟩ := hs.reached
  have hdelta := hs.deltaY_le
  have hlength := hv.pieceLength_le
  have hmaxle := hv.maxInflation_le
  have hvalid := hv.minInflation_lt
  unfold step
  rw [if_neg (by omega), Build.sub_of_lt hlt]
  cases b.overflowChecks with
  | true => rfl
  | false =>
      have hwrapped : input.maxInflation < u32Size + walk.y - walk.deltaY := by
        unfold u32Size
        omega
      have habove : input.minInflation < u32Size + walk.y - walk.deltaY := by omega
      have hassert : ¬ u32Size + walk.y - walk.deltaY - input.minInflation
          ≤ input.maxInflation - input.minInflation := by omega
      unfold INPoS.computeOppositeAfterXIdeal INposInput.inpos
      rw [if_neg Bool.false_ne_true, ok_bind, if_neg (by omega), if_neg (ne_of_gt habove),
        Build.sub_of_le hvalid.le, ok_bind, Build.sub_of_le habove.le, ok_bind, log2, asserted,
        if_neg hassert]
      rfl

/-- What a pass makes of the invariant and of the height and inflation left. -/
theorem Sound.next {walk : Walk} (hs : walk.Sound input)
    (hle : walk.deltaY ≤ walk.y) :
    match walk.next input with
    | .again walk' => walk'.Sound input ∧ walk'.deltaY + walk'.y < walk.deltaY + walk.y
    | .done points => ∃ c : Curve input, points = c.points := by
  obtain ⟨-, hx, hmin, hmax⟩ := hs.reached
  obtain ⟨trail, hpoints, hhead, hlast, hfalls, hplaced⟩ := hs.shape
  have hdelta := hs.deltaY_le
  unfold Walk.next
  by_cases hzero : walk.deltaY = 0
  · rw [if_pos hzero]
    refine ⟨⟨trail, input.minInflation, hhead, hfalls, hplaced, le_refl _, fun p hp => ?_,
      .inl rfl⟩, ?_⟩
    · exact (hplaced p (List.mem_of_getLast? hp)).2.2.1
    · rw [hpoints]
      rfl
  rw [if_neg hzero]
  by_cases hskip : walk.y - walk.deltaY ≤ input.minInflation ∨ input.pieceLength
      < input.position (walk.y - walk.deltaY) - input.position walk.y
  · rw [if_pos hskip]
    refine ⟨⟨⟨trail, hpoints, hhead, hlast, hfalls, hplaced⟩, (Nat.sub_le _ _).trans hdelta⟩, ?_⟩
    show walk.deltaY - 1 + walk.y < _
    omega
  rw [if_neg hskip]
  obtain ⟨hlow, hnarrow⟩ := not_or.mp hskip
  have habove : input.minInflation < walk.y - walk.deltaY := not_le.mp hlow
  have hanti := input.position_antitone habove (Nat.sub_le _ _) hmax
  have hpiece : Falls input.pieceLength (input.pointAt walk.y)
      (input.pointAt (walk.y - walk.deltaY)) := by
    refine ⟨hanti, ?_, ?_, ?_⟩
    · show input.position _ ≤ input.position _ + _
      omega
    · show walk.y - walk.deltaY < walk.y
      omega
    · show walk.y ≤ walk.y - walk.deltaY + input.pieceLength
      omega
  by_cases hend : 1000000 ≤ input.position (walk.y - walk.deltaY)
  · have hrise := rise_lt (input.position (walk.y - walk.deltaY) - 1000000)
      (input.position (walk.y - walk.deltaY) - input.position walk.y) walk.deltaY (by omega)
      (by omega)
    rw [if_pos hend]
    refine ⟨⟨trail, _, hhead, hfalls, hplaced, ?_, fun p hp => ?_, .inr fun p hp => ?_⟩,
      congrArg (· ++ _) hpoints⟩
    · exact habove.le.trans (Nat.le_add_right _ _)
    · rw [hlast, Option.mem_def, Option.some.injEq] at hp
      subst hp
      show _ < walk.y
      omega
    · rw [hlast, Option.mem_def, Option.some.injEq] at hp
      subst hp
      exact ⟨_, rfl, habove, hpiece, hend, Nat.le_add_right _ _⟩
  · rw [if_neg hend]
    refine ⟨⟨⟨trail ++ [input.pointAt (walk.y - walk.deltaY)], congrArg (· ++ _) hpoints, ?_,
      List.getLast?_concat, ?_, fun p hp => ?_⟩, hdelta⟩, ?_⟩
    · rw [List.head?_append, hhead]
      rfl
    · refine List.isChain_append.mpr ⟨hfalls, List.isChain_singleton _, fun p hp q hq => ?_⟩
      rw [hlast, Option.mem_def, Option.some.injEq] at hp
      rw [List.head?_cons, Option.mem_def, Option.some.injEq] at hq
      subst hp hq
      exact hpiece
    · rcases List.mem_append.mp hp with hp | hp
      · exact hplaced p hp
      · obtain rfl := List.mem_singleton.mp hp
        exact ⟨rfl, not_le.mp hend, habove, (Nat.sub_le _ _).trans hmax⟩
    · show walk.deltaY + (walk.y - walk.deltaY) < _
      omega

end Walk

/-! ## The points -/

section Outcome

variable {input : INposInput} {b : Build}

/-- Where the walk starts. -/
def INposInput.start (input : INposInput) : Walk :=
  ⟨[(0, input.minInflation), (input.idealStake, input.maxInflation)], input.pieceLength,
    input.maxInflation⟩

theorem INposInput.Valid.start_sound (hv : input.Valid) : input.start.Sound input := by
  refine ⟨⟨[(input.idealStake, input.maxInflation)], rfl, rfl, ?_, List.isChain_singleton _, ?_⟩,
    le_refl _⟩
  · show some _ = some (input.position input.maxInflation, input.maxInflation)
    rw [hv.position_max]
    rfl
  · intro p hp
    obtain rfl := List.mem_singleton.mp hp
    refine ⟨?_, ?_, hv.minInflation_lt, le_refl _⟩
    · show _ = (input.position input.maxInflation, input.maxInflation)
      rw [hv.position_max]
    · have := hv.idealStake_le
      show input.idealStake < 1000000
      omega

/-- A pass of the loop over these parameters. -/
def INposInput.pass (b : Build) (input : INposInput) : Walk → Runs (Loop.Next Walk (List Point)) :=
  Walk.step b input input.inpos input.pieceLength

theorem INposInput.Valid.progresses (hv : input.Valid) :
    Loop.Progresses (input.pass b) (Walk.Sound input) (fun walk => walk.deltaY + walk.y) := by
  have hpass : ∀ walk walk' : Walk, walk.Sound input → input.pass b walk = .ok (.again walk') →
      walk'.Sound input ∧ walk'.deltaY + walk'.y < walk.deltaY + walk.y := by
    intro walk walk' hs hstep
    unfold pass at hstep
    by_cases hle : walk.deltaY ≤ walk.y
    · rw [Walk.step_eq hv hs hle, Except.ok.injEq] at hstep
      have hnext := hs.next hle
      rw [hstep] at hnext
      exact hnext
    · rw [Walk.step_panics hv hs (by omega)] at hstep
      cases hstep
  exact ⟨fun w w' hs h => (hpass w w' hs h).1, fun w w' hs h => (hpass w w' hs h).2⟩

theorem INposInput.Valid.computePoints_eq (hv : input.Valid) :
    computePoints b input = Loop.run (input.pass b) (.error .unfinished)
      (input.pieceLength + input.maxInflation + 1) input.start := by
  rw [computePoints, hv.fromInput_eq, ok_bind, hv.maxLength_eq, ok_bind]
  rfl

/-- The walk comes to a step that is higher than the inflation it has reached. -/
def INposInput.Overshoots (b : Build) (input : INposInput) : Prop :=
  ∃ walk, Loop.Reaches (input.pass b) input.start walk ∧ walk.y < walk.deltaY

/-- The points are a curve, unless the walk overshoots. -/
theorem INposInput.Valid.curve_or_overshoots (hv : input.Valid) (b : Build) :
    computePoints b input = panicked ∧ input.Overshoots b ∨
      (∃ c : Curve input, computePoints b input = .ok c.points) ∧ ¬ input.Overshoots b := by
  have hstart := hv.start_sound
  have hfuel : input.start.deltaY + input.start.y < input.pieceLength + input.maxInflation + 1 :=
    Nat.lt_succ_self _
  rw [hv.computePoints_eq]
  obtain ⟨walk, hreaches, hs, ⟨points, hpass, hrun⟩ | ⟨e, hpass, hrun⟩⟩ :=
    Loop.run_outcome (.error .unfinished) (hv.progresses (b := b)) hstart hfuel
  · refine .inr ⟨?_, ?_⟩
    · have hle : walk.deltaY ≤ walk.y := by
        by_contra hlt
        rw [pass, Walk.step_panics hv hs (by omega)] at hpass
        cases hpass
      have hnext := hs.next hle
      rw [pass, Walk.step_eq hv hs hle, Except.ok.injEq] at hpass
      rw [hpass] at hnext
      obtain ⟨c, rfl⟩ := hnext
      exact ⟨c, hrun⟩
    · rintro ⟨walk', hreaches', hlt⟩
      have hpanic : input.pass b walk' = panicked :=
        Walk.step_panics hv (hreaches'.keeps hv.progresses hstart) hlt
      have herror := Loop.run_of_reaches (.error .unfinished) hv.progresses hstart
        hfuel hreaches' hpanic
      rw [hrun] at herror
      cases herror
  · have hlt : walk.y < walk.deltaY := by
      by_contra hle
      rw [pass, Walk.step_eq hv hs (by omega)] at hpass
      cases hpass
    rw [pass, Walk.step_panics hv hs hlt] at hpass
    cases hpass
    exact .inl ⟨hrun, walk, hreaches, hlt⟩

/-- A walk in pieces that are not higher than the minimal inflation and one does not overshoot. -/
theorem INposInput.Valid.exists_curve (hv : input.Valid) (b : Build)
    (hlength : input.pieceLength ≤ input.minInflation + 1) :
    ∃ c : Curve input, computePoints b input = .ok c.points := by
  rcases hv.curve_or_overshoots b with ⟨-, walk, hreaches, hlt⟩ | ⟨hcurve, -⟩
  · have hs := hreaches.keeps hv.progresses hv.start_sound
    have hdelta := hs.deltaY_le
    have hmin := hs.reached.2.2.1
    omega
  · exact hcurve

/-- Overflow checks make no difference. -/
theorem INposInput.Valid.computePoints_congr (hv : input.Valid) (b b' : Build) :
    computePoints b input = computePoints b' input := by
  rw [hv.computePoints_eq, hv.computePoints_eq]
  refine (Loop.run_congr (hv.progresses (b := b)) (fun walk hs => ?_) _ hv.start_sound).symm
  unfold pass
  by_cases hle : walk.deltaY ≤ walk.y
  · rw [Walk.step_eq hv hs hle, Walk.step_eq hv hs hle]
  · rw [Walk.step_panics hv hs (by omega), Walk.step_panics hv hs (by omega)]

/-- **For parameters within their bounds the points are a curve, or else the walk overshoots and
panics; if a piece is not higher than the minimal inflation and one, they are a curve. It makes no
difference whether the macro was built with overflow checks.** -/
theorem computePoints_outcome (hv : input.Valid) (b b' : Build) :
    (computePoints b input = panicked ∧ input.Overshoots b ∨
      (∃ c : Curve input, computePoints b input = .ok c.points) ∧ ¬ input.Overshoots b) ∧
    (input.pieceLength ≤ input.minInflation + 1 →
      ∃ c : Curve input, computePoints b input = .ok c.points) ∧
    computePoints b input = computePoints b' input :=
  ⟨hv.curve_or_overshoots b, hv.exists_curve b, hv.computePoints_congr b b'⟩

theorem computePoints_outcome_runtime :
    (computePoints hostDebug .runtime = panicked ∧ INposInput.runtime.Overshoots hostDebug ∨
      (∃ c : Curve .runtime, computePoints hostDebug .runtime = .ok c.points)
        ∧ ¬ INposInput.runtime.Overshoots hostDebug) ∧
    (INposInput.runtime.pieceLength ≤ INposInput.runtime.minInflation + 1 →
      ∃ c : Curve .runtime, computePoints hostDebug .runtime = .ok c.points) ∧
    computePoints hostDebug .runtime
      = computePoints { hostDebug with overflowChecks := false } .runtime :=
  computePoints_outcome INposInput.runtime_valid hostDebug { hostDebug with overflowChecks := false }

/-- The runtimes have a curve. -/
theorem exists_runtime_curve (b : Build) :
    ∃ c : Curve .runtime, computePoints b .runtime = .ok c.points :=
  INposInput.runtime_valid.exists_curve b (by decide)

end Outcome

end Setheum.RewardCurve
