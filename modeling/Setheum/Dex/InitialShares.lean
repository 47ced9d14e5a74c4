import Mathlib.Algebra.BigOperators.Group.List.Basic
import Mathlib.Algebra.Order.Field.Basic
import Mathlib.Tactic.FieldSimp
import Mathlib.Tactic.Linarith
import Mathlib.Tactic.Positivity
import Setheum.Dex.ShareValue

/-!
# The shares of the contributors

When a provisioned pair is enabled, every contributor is issued shares for what it contributed: the
larger of the two accumulated sides counts at its face value, the smaller one at the price of the
whole provision. The price is a fixed-point ratio, and zero if it has no representation. The smaller
sides are then credited nothing.

* `convert_near` — a part that is converted at the price is less than a unit, and the error of the
  price, away from the exact one.
* `initialShare_atLeast_iff`, `initialShare_near_iff` — when a single share is fair.
* `sum_initialShare_le_iff` — when the shares add up to at most twice the larger side.
* `shares_fair_iff` — when enabling a pair issues fair shares.
-/

set_option autoImplicit false

namespace Setheum.Dex

open StorageMap

/-! ## The two sides of a contribution -/

section Sides

variable {x c : ℕ × ℕ}

/-- The side of a contribution in the currency that more was accumulated of. -/
def major (accumulated contribution : ℕ × ℕ) : ℕ :=
  if accumulated.1 > accumulated.2 then contribution.1 else contribution.2

/-- The side in the currency that less was accumulated of. -/
def minor (accumulated contribution : ℕ × ℕ) : ℕ :=
  if accumulated.1 > accumulated.2 then contribution.2 else contribution.1

/-- What one unit of the smaller side counts. -/
def initialPrice (accumulated : ℕ × ℕ) : Option ℕ :=
  FixedU128.checkedFromRational (major accumulated accumulated) (minor accumulated accumulated)

/-- Both sides at the value that the whole provision gives them. -/
def entitlement (accumulated contribution : ℕ × ℕ) : ℚ :=
  max accumulated.1 accumulated.2 *
    (contribution.1 / accumulated.1 + contribution.2 / accumulated.2)

theorem initialShare_eq (x c : ℕ × ℕ) :
    initialShare x c = Balance.saturatingAdd
      (FixedU128.saturatingMulInt ((initialPrice x).getD 0) (minor x c)) (major x c) := by
  unfold initialShare initialPrice major minor
  split <;> rfl

theorem major_add_minor (x c : ℕ × ℕ) : major x c + minor x c = c.1 + c.2 := by
  unfold major minor
  split
  · rfl
  · exact Nat.add_comm ..

theorem minor_le_major (x : ℕ × ℕ) : minor x x ≤ major x x := by
  unfold major minor
  split <;> omega

theorem major_self (x : ℕ × ℕ) : major x x = max x.1 x.2 := by
  unfold major
  split <;> omega

theorem minor_pos (h : x.1 ≠ 0 ∧ x.2 ≠ 0) : 0 < minor x x := by
  unfold minor
  split <;> omega

theorem entitlement_eq (h : x.1 ≠ 0 ∧ x.2 ≠ 0) (c : ℕ × ℕ) :
    entitlement x c = major x c + major x x * minor x c / minor x x := by
  have h0 : (x.1 : ℚ) ≠ 0 := Nat.cast_ne_zero.mpr h.1
  have h1 : (x.2 : ℚ) ≠ 0 := Nat.cast_ne_zero.mpr h.2
  unfold entitlement
  rw [← major_self]
  unfold major minor
  split
  · field_simp
  · field_simp
    ring

theorem sum_major (x : ℕ × ℕ) (contributions : List (ℕ × ℕ)) :
    (contributions.map (major x)).sum = major x contributions.sum := by
  induction contributions with
  | nil => simp [major]
  | cons c contributions ih =>
      rw [List.map_cons, List.sum_cons, List.sum_cons, ih]
      unfold major
      split <;> rfl

theorem sum_minor (x : ℕ × ℕ) (contributions : List (ℕ × ℕ)) :
    (contributions.map (minor x)).sum = minor x contributions.sum := by
  induction contributions with
  | nil => simp [minor]
  | cons c contributions ih =>
      rw [List.map_cons, List.sum_cons, List.sum_cons, ih]
      unfold minor
      split <;> rfl

end Sides

/-! ## One share -/

section Share

variable {x c : ℕ × ℕ} {price n : ℕ}

/-- A part of the smaller side at the price. -/
def converted (price n : ℕ) : ℕ := FixedU128.quotient (price * n) FixedU128.accuracy

/-- Without a price the smaller side counts nothing. -/
theorem initialShare_of_none (hprice : initialPrice x = none)
    (hc : major x c ≤ Balance.maxValue) : initialShare x c = major x c := by
  rw [initialShare_eq, hprice]
  simp only [Option.getD_none, FixedU128.saturatingMulInt, FixedU128.checkedMulInt,
    FixedU128.multiplyByRational, FixedU128.quotient, Nat.zero_mul, Nat.zero_div, Nat.zero_le,
    true_or, if_true, Option.getD_some, Balance.saturatingAdd, Nat.zero_add]
  exact Nat.min_eq_left hc

theorem initialShare_of_some (hprice : initialPrice x = some price) (c : ℕ × ℕ) :
    initialShare x c = min (converted price (minor x c) + major x c) Balance.maxValue := by
  have hunit : max FixedU128.accuracy 1 = FixedU128.accuracy := rfl
  rw [initialShare_eq, hprice, Option.getD_some, FixedU128.saturatingMulInt,
    FixedU128.checkedMulInt, FixedU128.multiplyByRational, hunit, Balance.saturatingAdd]
  unfold converted
  split
  · rw [Option.getD_some]
  · rw [Option.getD_none]
    omega

/-- The smaller side never counts less than its face value. -/
theorem le_converted (hprice : initialPrice x = some price) (n : ℕ) :
    n ≤ converted price n := by
  obtain ⟨hpos, rfl, -⟩ := FixedU128.checkedFromRational_eq_some.mp hprice
  apply FixedU128.le_quotient (by decide)
  rw [Nat.mul_comm n]
  apply Nat.mul_le_mul_right
  apply FixedU128.le_quotient hpos
  rw [Nat.mul_comm]
  exact Nat.mul_le_mul_right _ (minor_le_major x)

/-- **A converted part is less than a unit, and the error of the price, away from the exact
one.** -/
theorem convert_near (hprice : initialPrice x = some price) (n : ℕ) :
    |(converted price n : ℚ) - major x x * n / minor x x| < 1 + n / FixedU128.accuracy := by
  obtain ⟨hpos, hquot, -⟩ := FixedU128.checkedFromRational_eq_some.mp hprice
  have hpriced := FixedU128.quotient_within (major x x * FixedU128.accuracy) hpos
  rw [hquot] at hpriced
  have hconverted := FixedU128.quotient_within (price * n)
    (by decide : 0 < FixedU128.accuracy)
  change converted price n * _ < _ ∧ _ < converted price n * _ + _ at hconverted
  have habove : converted price n * minor x x * FixedU128.accuracy
      < major x x * n * FixedU128.accuracy + minor x x * (n + FixedU128.accuracy) := by
    have hprice' := Nat.mul_le_mul_right n hpriced.1.le
    have hconverted' := Nat.mul_lt_mul_of_pos_right hconverted.1 hpos
    linarith
  have hbelow : major x x * n * FixedU128.accuracy
      < converted price n * minor x x * FixedU128.accuracy
        + minor x x * (n + FixedU128.accuracy) := by
    have hprice' := Nat.mul_le_mul_right n hpriced.2.le
    have hconverted' := Nat.mul_lt_mul_of_pos_right hconverted.2 hpos
    linarith
  have hminor : (0 : ℚ) < minor x x := Nat.cast_pos.mpr hpos
  have hunit : (0 : ℚ) < FixedU128.accuracy := by norm_num [FixedU128.accuracy]
  have herror : (1 : ℚ) + n / FixedU128.accuracy
      = minor x x * (n + FixedU128.accuracy) / (minor x x * FixedU128.accuracy) := by
    field_simp
    ring
  have hdistance : (converted price n : ℚ) - major x x * n / minor x x
      = (converted price n * minor x x * FixedU128.accuracy - major x x * n * FixedU128.accuracy)
        / (minor x x * FixedU128.accuracy) := by
    field_simp
  rw [herror, hdistance, abs_lt, ← neg_div]
  constructor
  · apply div_lt_div_of_pos_right _ (mul_pos hminor hunit)
    have hcast : (major x x * n * FixedU128.accuracy : ℚ)
        < converted price n * minor x x * FixedU128.accuracy
          + minor x x * (n + FixedU128.accuracy) := by
      exact_mod_cast hbelow
    linarith
  · apply div_lt_div_of_pos_right _ (mul_pos hminor hunit)
    have hcast : (converted price n * minor x x * FixedU128.accuracy : ℚ)
        < major x x * n * FixedU128.accuracy + minor x x * (n + FixedU128.accuracy) := by
      exact_mod_cast habove
    linarith

/-- A share is fair: both sides at the value the whole provision gives them, up to a unit and the
error of the price. -/
def Near (x c : ℕ × ℕ) (share : ℕ) : Prop :=
  |(share : ℚ) - entitlement x c| < 1 + minor x c / FixedU128.accuracy

/-- A share is at least what was contributed, unless that is beyond the balance type. -/
theorem initialShare_atLeast_iff (hprice : initialPrice x = some price)
    (c : ℕ × ℕ) : c.1 + c.2 ≤ initialShare x c ↔ c.1 + c.2 ≤ Balance.maxValue := by
  have hminor := le_converted hprice (minor x c)
  have hsides := major_add_minor x c
  rw [initialShare_of_some hprice]
  omega

/-- A share is fair, unless the fair one is beyond the balance type. -/
theorem initialShare_near_iff (hx : x.1 ≠ 0 ∧ x.2 ≠ 0) (hprice : initialPrice x = some price)
    (c : ℕ × ℕ) : Near x c (initialShare x c) ↔
      entitlement x c < Balance.maxValue + 1 + minor x c / FixedU128.accuracy := by
  obtain ⟨habove, hbelow⟩ := abs_lt.mp (convert_near hprice (minor x c))
  have hexact := entitlement_eq hx c
  rw [Near, initialShare_of_some hprice, abs_lt]
  by_cases hfits : converted price (minor x c) + major x c ≤ Balance.maxValue
  · have hcast : ((converted price (minor x c) + major x c : ℕ) : ℚ) ≤ Balance.maxValue := by
      exact_mod_cast hfits
    rw [Nat.min_eq_left hfits, hexact]
    push_cast at hcast ⊢
    constructor
    · intro _
      linarith
    · intro _
      constructor <;> linarith
  · have hcast : (Balance.maxValue : ℚ) < (converted price (minor x c) + major x c : ℕ) := by
      exact_mod_cast not_le.mp hfits
    rw [Nat.min_eq_right (by omega), hexact]
    push_cast at hcast ⊢
    constructor
    · rintro ⟨hlower, -⟩
      linarith
    · intro hlower
      constructor <;> linarith

end Share

/-! ## All shares -/

section Shares

variable {x : ℕ × ℕ} {price : ℕ} {contributions : List (ℕ × ℕ)}

/-- Rounding the converted parts up, which happens above 128 bits only, adds no more to their sum
than rounding down takes off. -/
def RoundingCovered (x : ℕ × ℕ) (contributions : List (ℕ × ℕ)) : Prop :=
  let price := (initialPrice x).getD 0
  price * minor x x + FixedU128.accuracy *
      ((contributions.map (minor x)).countP fun n =>
        ¬ FixedU128.RoundsDown (price * n) FixedU128.accuracy)
    ≤ major x x * FixedU128.accuracy +
      ((contributions.map (minor x)).map fun n => price * n % FixedU128.accuracy).sum

instance : Decidable (RoundingCovered x contributions) := inferInstanceAs (Decidable (_ ≤ _))

/-- A price and products that are rounded down are no reason for concern. -/
theorem roundingCovered_of_roundsDown
    (hprice : FixedU128.RoundsDown (major x x * FixedU128.accuracy) (minor x x))
    (hparts : ∀ n ∈ contributions.map (minor x),
      FixedU128.RoundsDown ((initialPrice x).getD 0 * n) FixedU128.accuracy) :
    RoundingCovered x contributions := by
  have hnone : ((contributions.map (minor x)).countP fun n =>
      ¬ FixedU128.RoundsDown ((initialPrice x).getD 0 * n) FixedU128.accuracy) = 0 := by
    apply List.countP_eq_zero.mpr
    intro n hn
    simpa using hparts n hn
  have hfloor : (initialPrice x).getD 0 * minor x x ≤ major x x * FixedU128.accuracy := by
    cases hsome : initialPrice x with
    | none => simp
    | some price => exact FixedU128.checkedFromRational_mul_le hprice hsome
  unfold RoundingCovered
  dsimp only
  rw [hnone, Nat.mul_zero, Nat.add_zero]
  exact hfloor.trans (Nat.le_add_right _ _)

theorem sum_converted_le_iff (hprice : initialPrice x = some price)
    (hsum : contributions.sum = x) :
    ((contributions.map (minor x)).map (converted price)).sum ≤ major x x ↔
      RoundingCovered x contributions := by
  have hexact := FixedU128.sum_quotient price (contributions.map (minor x))
  rw [sum_minor, hsum] at hexact
  change _ * ((contributions.map (minor x)).map (converted price)).sum + _ = _ at hexact
  have hscale : ((contributions.map (minor x)).map (converted price)).sum ≤ major x x ↔
      FixedU128.accuracy * ((contributions.map (minor x)).map (converted price)).sum
        ≤ FixedU128.accuracy * major x x :=
    (Nat.mul_le_mul_left_iff (by decide)).symm
  rw [hscale]
  unfold RoundingCovered
  rw [hprice]
  dsimp only [Option.getD_some]
  rw [Nat.mul_comm (major x x)]
  omega

/-- **The shares add up to at most twice the larger side**, if rounding is covered. -/
theorem sum_initialShare_le_iff (hprice : initialPrice x = some price)
    (hsum : contributions.sum = x)
    (hissued : (contributions.map (initialShare x)).sum ≤ Balance.maxValue) :
    (contributions.map (initialShare x)).sum ≤ 2 * max x.1 x.2 ↔
      Balance.maxValue ≤ 2 * max x.1 x.2 ∨ RoundingCovered x contributions := by
  have hmajor : (contributions.map (major x)).sum = max x.1 x.2 := by
    rw [sum_major, hsum, major_self]
  have hsplit : (contributions.map fun c => converted price (minor x c) + major x c).sum
      = ((contributions.map (minor x)).map (converted price)).sum + max x.1 x.2 := by
    rw [List.sum_map_add, hmajor, List.map_map]
    rfl
  have hle : (contributions.map (initialShare x)).sum
      ≤ (contributions.map fun c => converted price (minor x c) + major x c).sum := by
    apply List.sum_le_sum
    intro c _
    rw [initialShare_of_some hprice]
    exact Nat.min_le_left _ _
  rw [← sum_converted_le_iff hprice hsum, major_self]
  constructor
  · intro hshares
    by_cases hlarge : Balance.maxValue ≤ 2 * max x.1 x.2
    · exact .inl hlarge
    · -- no share is capped, since one that is makes up the whole sum
      have hexact : (contributions.map (initialShare x)).sum
          = (contributions.map fun c => converted price (minor x c) + major x c).sum := by
        apply congrArg List.sum
        apply List.map_congr_left
        intro c hc
        have hone : initialShare x c ≤ (contributions.map (initialShare x)).sum :=
          List.le_sum_of_mem (List.mem_map_of_mem hc)
        rw [initialShare_of_some hprice] at hone ⊢
        omega
      exact .inr (by omega)
  · rintro (hlarge | hcovered)
    · omega
    · omega

/-- What makes the shares of all contributors fair. -/
structure SharesFit (x : ℕ × ℕ) (contributions : List (ℕ × ℕ)) : Prop where
  priced : initialPrice x ≠ none
  fits : ∀ c ∈ contributions, c.1 + c.2 ≤ Balance.maxValue ∧
    entitlement x c < Balance.maxValue + 1 + minor x c / FixedU128.accuracy
  covered : Balance.maxValue ≤ 2 * max x.1 x.2 ∨ RoundingCovered x contributions

/-- Shares that are fair: each is at least what was contributed and near what it is worth, neither
side of a contribution is credited nothing, and all of them are at most twice the larger side. -/
structure FairShares {A : Type} (x : ℕ × ℕ) (entries : List (A × (ℕ × ℕ))) (share : A → ℕ) :
    Prop where
  atLeast : ∀ e ∈ entries, e.2.1 + e.2.2 ≤ share e.1
  near : ∀ e ∈ entries, Near x e.2 (share e.1)
  credited : ∀ e ∈ entries, (e.2.1 ≠ 0 → e.2.2 < share e.1) ∧ (e.2.2 ≠ 0 → e.2.1 < share e.1)
  total : (entries.map fun e => share e.1).sum ≤ 2 * max x.1 x.2

theorem fairShares_iff {A : Type} {entries : List (A × (ℕ × ℕ))} {share : A → ℕ}
    (hx : x.1 ≠ 0 ∧ x.2 ≠ 0) (hmax : x.1 ≤ Balance.maxValue ∧ x.2 ≤ Balance.maxValue)
    (hsum : (entries.map Prod.snd).sum = x)
    (hshare : ∀ e ∈ entries, share e.1 = initialShare x e.2)
    (hissued : (entries.map fun e => initialShare x e.2).sum ≤ Balance.maxValue) :
    FairShares x entries share ↔ SharesFit x (entries.map Prod.snd) := by
  have htotal : (entries.map fun e => share e.1).sum
      = ((entries.map Prod.snd).map (initialShare x)).sum := by
    rw [List.map_map]
    exact congrArg List.sum (List.map_congr_left hshare)
  have hissued' : ((entries.map Prod.snd).map (initialShare x)).sum ≤ Balance.maxValue := by
    rw [List.map_map]
    exact hissued
  constructor
  · intro h
    obtain ⟨price, hprice⟩ : ∃ price, initialPrice x = some price := by
      apply Option.ne_none_iff_exists'.mp
      intro hnone
      -- without a price no smaller side is credited, though together they are not zero
      have hminor : ∀ e ∈ entries, minor x e.2 = 0 := by
        intro e he
        have hsides := major_add_minor x e.2
        have hle : major x e.2 ≤ (entries.map fun e => major x e.2).sum :=
          List.le_sum_of_mem (List.mem_map_of_mem he)
        have hmajor : (entries.map fun e => major x e.2).sum = max x.1 x.2 := by
          have hall := sum_major x (entries.map Prod.snd)
          rw [hsum, major_self, List.map_map] at hall
          exact hall
        have hatLeast := h.atLeast e he
        rw [hshare e he, initialShare_of_none hnone (by omega)] at hatLeast
        omega
      have hall := sum_minor x (entries.map Prod.snd)
      rw [hsum, List.map_map] at hall
      have hzero : (entries.map (minor x ∘ Prod.snd)).sum = 0 := by
        apply List.sum_eq_zero
        intro n hn
        obtain ⟨e, he, rfl⟩ := List.mem_map.mp hn
        exact hminor e he
      have hpos := minor_pos hx
      omega
    refine ⟨by rw [hprice]; exact Option.some_ne_none _, ?_, ?_⟩
    · intro c hc
      obtain ⟨e, he, rfl⟩ := List.mem_map.mp hc
      have hatLeast := h.atLeast e he
      have hnear := h.near e he
      rw [hshare e he] at hatLeast hnear
      exact ⟨(initialShare_atLeast_iff hprice e.2).mp hatLeast,
        (initialShare_near_iff hx hprice e.2).mp hnear⟩
    · have htotal' := h.total
      rw [htotal] at htotal'
      exact (sum_initialShare_le_iff hprice hsum hissued').mp htotal'
  · intro h
    obtain ⟨price, hprice⟩ := Option.ne_none_iff_exists'.mp h.priced
    have hatLeast : ∀ e ∈ entries, e.2.1 + e.2.2 ≤ share e.1 := by
      intro e he
      rw [hshare e he]
      exact (initialShare_atLeast_iff hprice e.2).mpr (h.fits e.2 (List.mem_map_of_mem he)).1
    refine ⟨hatLeast, ?_, ?_, ?_⟩
    · intro e he
      rw [hshare e he]
      exact (initialShare_near_iff hx hprice e.2).mpr (h.fits e.2 (List.mem_map_of_mem he)).2
    · intro e he
      have hle := hatLeast e he
      omega
    · rw [htotal]
      exact (sum_initialShare_le_iff hprice hsum hissued').mpr h.covered

end Shares

/-! ## Enabling a pair -/

section Enabling

variable {A E : Type} [DecidableEq A] {cfg : Config A E} {s : State A E} {p : TradingPair}
  {params : TradingPairProvisionParameters} {lp : CurrencyId} {accumulated : ℕ × ℕ}

/-- The ledger accepts the shares of all contributors, one after another. -/
def DepositsSucceed (cfg : Config A E) (lp : CurrencyId) (accumulated : ℕ × ℕ) :
    List (A × (ℕ × ℕ)) → Ledger CurrencyId A → Prop
  | [], _ => True
  | e :: entries, l =>
      ∃ l', Ledger.deposit cfg.rules lp e.1 (initialShare accumulated e.2) l = .ok l' ∧
        DepositsSucceed cfg lp accumulated entries l'

/-- The shares an account is issued between two states. -/
def received (lp : CurrencyId) (s s' : State A E) (who : A) : ℕ :=
  s'.ledger.free lp who - s.ledger.free lp who

/-- Issuing shares to contributors, each once. -/
theorem issueShares_free {entries : List (A × (ℕ × ℕ))}
    (hnodup : (entries.map Prod.fst).Nodup)
    (hdeposits : DepositsSucceed cfg lp accumulated entries s.ledger) :
    (∀ e ∈ entries, (entries.foldl (issueShare cfg lp accumulated) s).ledger.free lp e.1
      = s.ledger.free lp e.1 + initialShare accumulated e.2) ∧
    (∀ who ∉ entries.map Prod.fst,
      (entries.foldl (issueShare cfg lp accumulated) s).ledger.free lp who
        = s.ledger.free lp who) ∧
    (entries.foldl (issueShare cfg lp accumulated) s).ledger.issuance lp
      = s.ledger.issuance lp + (entries.map fun e => initialShare accumulated e.2).sum := by
  induction entries generalizing s with
  | nil => exact ⟨fun _ h => absurd h List.not_mem_nil, fun _ _ => rfl, rfl⟩
  | cons e entries ih =>
      obtain ⟨hfresh, hnodup⟩ := List.nodup_cons.mp hnodup
      obtain ⟨l, hl, hrest⟩ := hdeposits
      have hledger : (issueShare cfg lp accumulated s e).ledger = l := by
        unfold issueShare
        dsimp only
        rw [hl]
      have hissuance := Ledger.deposit_issuance hl lp
      rw [if_pos rfl] at hissuance
      rw [← hledger] at hrest
      obtain ⟨hmem, hother, htotal⟩ := ih hnodup hrest
      rw [hledger] at hmem hother htotal
      rw [List.foldl_cons]
      refine ⟨?_, ?_, ?_⟩
      · intro e' he'
        have hfree := Ledger.deposit_free hl lp e'.1
        rcases List.mem_cons.mp he' with rfl | he'
        · rw [hother e'.1 hfresh, hfree, if_pos ⟨rfl, rfl⟩]
        · have hne : e'.1 ≠ e.1 := by
            intro heq
            exact hfresh (heq ▸ List.mem_map_of_mem he')
          rw [hmem e' he', hfree, if_neg fun h => hne h.2, Nat.add_zero]
      · intro who hwho
        rw [List.map_cons, List.mem_cons, not_or] at hwho
        obtain ⟨hne, hwho⟩ := hwho
        rw [hother who hwho, Ledger.deposit_free hl, if_neg fun h => hne h.2, Nat.add_zero]
      · rw [htotal, hissuance, List.map_cons, List.sum_cons, Nat.add_assoc]

omit [DecidableEq A] in
/-- Every contributor of a pair has one entry. -/
theorem provisionsOf_nodup (s : State A E) (p : TradingPair) :
    ((s.provisionsOf p).map Prod.fst).Nodup := by
  have hkeys : ((restrict (fun k => k.1 = p) s.provisioningPool).entries.map Sigma.fst).Nodup := by
    have hmap := (restrict (fun k => k.1 = p) s.provisioningPool).nodupKeys
    rwa [List.NodupKeys, List.keys] at hmap
  have hpair : ∀ k ∈ (restrict (fun k => k.1 = p) s.provisioningPool).entries.map Sigma.fst,
      k.1 = p := by
    intro k hk
    obtain ⟨e, he, rfl⟩ := List.mem_map.mp hk
    exact of_decide_eq_true (List.mem_filter.mp he).2
  have hmap : (s.provisionsOf p).map Prod.fst
      = ((restrict (fun k => k.1 = p) s.provisioningPool).entries.map Sigma.fst).map Prod.snd := by
    rw [State.provisionsOf, List.map_map, List.map_map]
    rfl
  rw [hmap]
  apply List.Nodup.map_on _ hkeys
  intro k hk k' hk' heq
  exact Prod.ext ((hpair k hk).trans (hpair k' hk').symm) heq

/-- **The shares that enabling a pair issues are fair exactly if** the price of the smaller side
has a representation, the fair shares fit the balance type, and rounding up is covered. -/
theorem shares_fair_iff (hst : s.tradingPairStatus p = .Provisioning params)
    (hlp : p.getDexShareCurrencyId = some lp) (hcan : canBeEnabled s.blockNumber params = true)
    (hmax : params.accumulatedProvision.1 ≤ Balance.maxValue ∧
      params.accumulatedProvision.2 ≤ Balance.maxValue)
    (hsum : ((s.provisionsOf p).map Prod.snd).sum = params.accumulatedProvision)
    (hdeposits : DepositsSucceed cfg lp params.accumulatedProvision (s.provisionsOf p) s.ledger) :
    FairShares params.accumulatedProvision (s.provisionsOf p)
        (received lp s (convertToEnabledIfPossible cfg p s)) ↔
      SharesFit params.accumulatedProvision ((s.provisionsOf p).map Prod.snd) := by
  have hledger : (convertToEnabledIfPossible cfg p s).ledger
      = ((s.provisionsOf p).foldl (issueShare cfg lp params.accumulatedProvision) s).ledger := by
    unfold convertToEnabledIfPossible
    rw [hst, hlp]
    dsimp only
    rw [if_pos hcan]
  obtain ⟨hmem, -, htotal⟩ := issueShares_free (provisionsOf_nodup s p) hdeposits
  have hnonzero : params.accumulatedProvision.1 ≠ 0 ∧ params.accumulatedProvision.2 ≠ 0 := by
    simp only [canBeEnabled, Bool.and_eq_true, decide_eq_true_eq] at hcan
    exact ⟨hcan.1.1.2, hcan.1.2⟩
  apply fairShares_iff hnonzero hmax hsum
  · intro e he
    rw [received, hledger, hmem e he, Nat.add_sub_cancel_left]
  · have hissuance := ((s.provisionsOf p).foldl
      (issueShare cfg lp params.accumulatedProvision) s).ledger.issuance_le lp
    omega

end Enabling

/-- Account 1 has contributed the given DNAR and account 2 the given USDJ. -/
def provisionedState (x : ℕ × ℕ) : State ℕ Unit :=
  { sampleState with
    tradingPairStatuses := (∅ : Map TradingPair TradingPairStatus).insert samplePair
      (.Provisioning ⟨(1, 1), x, x, 0⟩)
    provisioningPool := ((∅ : Map (TradingPair × ℕ) (ℕ × ℕ)).insert (samplePair, 1)
      (x.1, 0)).insert (samplePair, 2) (0, x.2) }

theorem shares_fair_iff_sample :
    FairShares (30, 20) ((provisionedState (30, 20)).provisionsOf samplePair)
        (received sampleShare (provisionedState (30, 20))
          (convertToEnabledIfPossible sampleConfig samplePair (provisionedState (30, 20)))) ↔
      SharesFit (30, 20) [(0, 20), (30, 0)] :=
  have hst : (provisionedState (30, 20)).tradingPairStatus samplePair
      = .Provisioning ⟨(1, 1), (30, 20), (30, 20), 0⟩ := rfl
  have hdeposits : DepositsSucceed sampleConfig sampleShare (30, 20)
      ((provisionedState (30, 20)).provisionsOf samplePair) (provisionedState (30, 20)).ledger :=
    ⟨_, rfl, _, rfl, trivial⟩
  shares_fair_iff hst rfl (by decide) (by decide) rfl hdeposits

/-- **A contributor can be issued nothing.** The price of `10 ^ 24` DNAR to a thousand USDJ has no
representation. -/
theorem shares_lost :
    received sampleShare (provisionedState (10 ^ 24, 1000))
      (convertToEnabledIfPossible sampleConfig samplePair (provisionedState (10 ^ 24, 1000))) 2
        = 0 ∧
    ¬ FairShares (10 ^ 24, 1000) ((provisionedState (10 ^ 24, 1000)).provisionsOf samplePair)
      (received sampleShare (provisionedState (10 ^ 24, 1000))
        (convertToEnabledIfPossible sampleConfig samplePair
          (provisionedState (10 ^ 24, 1000)))) := by
  have hnothing : received sampleShare (provisionedState (10 ^ 24, 1000))
      (convertToEnabledIfPossible sampleConfig samplePair (provisionedState (10 ^ 24, 1000))) 2
        = 0 := by
    decide +kernel
  refine ⟨hnothing, fun h => ?_⟩
  have hmem : (2, (0, 1000)) ∈ (provisionedState (10 ^ 24, 1000)).provisionsOf samplePair := by
    decide +kernel
  have hatLeast := h.atLeast _ hmem
  rw [hnothing] at hatLeast
  exact absurd hatLeast (by decide)

end Setheum.Dex
