import Mathlib.Algebra.Order.Field.Basic
import Mathlib.Data.Rat.Cast.Order
import Mathlib.Tactic.FieldSimp
import Mathlib.Tactic.Linarith
import Setheum.Democracy.Effects

/-!
# What a proposal's deposit is worth

The minimum deposit is an amount of Setter. In another currency the deposit is required to be at
least the minimum times the currency's price in Setter, where an amount of the same worth would be
the minimum divided by it. So the dearer the currency, the more of it is asked for.

* `propose_minimum` — an accepted proposal meets the required minimum.
* `le_base_of_le`, `base_le_of_le` — the base is above the minimum where the price is above one, and
  below it where the price is below one.
* `deposits_worth_iff` — when every accepted deposit is worth the minimum.
-/

set_option autoImplicit false

namespace Setheum.Democracy

variable {A H : Type} [DecidableEq A] [DecidableEq H] {cfg : Config A H} {s s' : State A H}
  {c : CurrencyId}

/-- The multiple of the minimum deposit that is configured for a currency. -/
def Config.multiple (cfg : Config A H) (c : CurrencyId) : ℕ :=
  if c = cfg.nativeCurrencyId then cfg.goldenMinimumDepositMultiple
  else if c = cfg.setterCurrencyId then cfg.setterMinimumDepositMultiple
  else if c = cfg.dexCurrencyId then cfg.silverMinimumDepositMultiple
  else 0

/-- What one unit of a currency is worth in Setter. -/
def Config.priceInSetter (cfg : Config A H) (c : CurrencyId) (price setterPrice : Option ℕ) : ℚ :=
  if c = cfg.setterCurrencyId then 1 else (price.getD 0 : ℚ) / (setterPrice.getD 0 : ℚ)

/-- Every deposit that is accepted at these prices, whatever the state of the chain and on whatever
other grounds the currency refuses, is worth the minimum times the currency's multiple. -/
def DepositsWorth (cfg : Config A H) (c : CurrencyId) (price setterPrice : Option ℕ) : Prop :=
  ∀ (rules : Reserves.Rules A) (s s' : State A H) (who : A) (h : H) (value : ℕ) (u : Unit),
    s.price c = price → s.setterFixedPrice = setterPrice →
    (propose { cfg with rules := rules } who h c value).run s = .ok u s' →
    (cfg.minimumDeposit * cfg.multiple c : ℚ) ≤ value * cfg.priceInSetter c price setterPrice

/-! ## The required minimum -/

/-- An accepted proposal meets the minimum, and finds room in the queue. -/
theorem propose_minimum {who : A} {h : H} {value : ℕ} {u : Unit}
    (hrun : (propose cfg who h c value).run s = .ok u s') :
    (∃ minimum, s.minimumDeposit cfg c = some minimum ∧ minimum ≤ value) ∧
      0 < cfg.maxProposals := by
  obtain ⟨minimum, -, hminimum, hvalue, hlength, -⟩ := propose_ok hrun
  exact ⟨⟨minimum, hminimum, hvalue⟩, Nat.zero_lt_of_lt hlength⟩

omit [DecidableEq A] [DecidableEq H] in
theorem relativeMinimum_eq_some {k minimum : ℕ} :
    s.relativeMinimum cfg c k = some minimum ↔
      ∃ p q r base, s.price c = some p ∧ s.setterFixedPrice = some q ∧
        FixedU128.checkedDiv p q = some r ∧
        FixedU128.checkedMulInt r cfg.minimumDeposit = some base ∧ base * k = minimum := by
  unfold State.relativeMinimum State.relativePrice
  simp only [Option.bind_eq_some_iff, Option.map_eq_some_iff]
  constructor
  · rintro ⟨r, ⟨p, hp, q, hq, hr⟩, base, hbase, rfl⟩
    exact ⟨p, q, r, base, hp, hq, hr, hbase, rfl⟩
  · rintro ⟨p, q, r, base, hp, hq, hr, hbase, rfl⟩
    exact ⟨r, ⟨p, hp, q, hq, hr⟩, base, hbase, rfl⟩

omit [DecidableEq A] [DecidableEq H] in
/-- The minimum of a currency that has a price in Setter. -/
theorem minimumDeposit_of_relative (hsetter : c ≠ cfg.setterCurrencyId)
    (hmultiple : cfg.multiple c ≠ 0) (s : State A H) :
    s.minimumDeposit cfg c = s.relativeMinimum cfg c (cfg.multiple c) := by
  unfold State.minimumDeposit
  unfold Config.multiple at hmultiple ⊢
  by_cases hnative : c = cfg.nativeCurrencyId
  · rw [if_pos hnative, if_pos hnative]
  · rw [if_neg hnative, if_neg hsetter] at hmultiple ⊢
    rw [if_neg hnative, if_neg hsetter]
    by_cases hdex : c = cfg.dexCurrencyId
    · rw [if_pos hdex, if_pos hdex]
    · rw [if_neg hdex] at hmultiple
      exact absurd rfl hmultiple

omit [DecidableEq A] [DecidableEq H] in
theorem minimumDeposit_of_setter (hne : cfg.nativeCurrencyId ≠ cfg.setterCurrencyId)
    (s : State A H) :
    s.minimumDeposit cfg cfg.setterCurrencyId
      = some (cfg.minimumDeposit * cfg.multiple cfg.setterCurrencyId) := by
  unfold State.minimumDeposit Config.multiple
  rw [if_neg (Ne.symm hne), if_pos rfl, if_neg (Ne.symm hne), if_pos rfl]

section Base

variable {p q r n base : ℕ}

/-- At a price of at least one, the base is at least the minimum. -/
theorem le_base_of_le (hle : q ≤ p) (hr : FixedU128.checkedDiv p q = some r)
    (hbase : FixedU128.checkedMulInt r n = some base) : n ≤ base := by
  obtain ⟨hq, rfl, -⟩ := FixedU128.checkedDiv_eq_some.mp hr
  obtain ⟨rfl, -⟩ := (FixedU128.multiplyByRational_eq_some (by decide)).mp hbase
  apply FixedU128.le_quotient (by decide)
  rw [Nat.mul_comm n]
  apply Nat.mul_le_mul_right
  apply FixedU128.le_quotient hq
  rw [Nat.mul_comm]
  exact Nat.mul_le_mul_right _ hle

/-- At a price of at most one, there is a base, and it is at most the minimum. -/
theorem base_le_of_le (hq : 0 < q) (hle : p ≤ q) (hn : n ≤ Balance.maxValue) :
    ∃ r base, FixedU128.checkedDiv p q = some r ∧
      FixedU128.checkedMulInt r n = some base ∧ base ≤ n := by
  have hratio : FixedU128.quotient (p * FixedU128.accuracy) q ≤ FixedU128.accuracy := by
    apply FixedU128.quotient_le
    rw [Nat.mul_comm FixedU128.accuracy]
    exact Nat.mul_le_mul_right _ hle
  have hbase : FixedU128.quotient (FixedU128.quotient (p * FixedU128.accuracy) q * n)
      FixedU128.accuracy ≤ n := by
    apply FixedU128.quotient_le
    rw [Nat.mul_comm n]
    exact Nat.mul_le_mul_right _ hratio
  refine ⟨_, _, FixedU128.checkedDiv_eq_some.mpr ⟨hq, rfl, hratio.trans (by decide)⟩,
    (FixedU128.multiplyByRational_eq_some (by decide)).mpr ⟨rfl, hbase.trans hn⟩, hbase⟩

end Base

/-! ## The worth of a deposit -/

/-- Some state, with the given prices and funds, in which a proposal is accepted. -/
def openState (c : CurrencyId) (price setterPrice : Option ℕ) (value : ℕ) : State A H where
  blockNumber := 0
  freeBalance _ := 0
  issuance := 0
  lock _ := 0
  tokens _ := ⟨fun _ => value, fun _ => 0⟩
  tokenIssuance _ := 0
  setterFixedPrice := setterPrice
  price c' := if c' = c then price else none
  publicPropCount := 0
  publicProps := []
  depositOf := ∅
  preimages := ∅
  referendumCount := 0
  lowestUnbaked := 0
  referendumInfoOf := ∅
  votingOf := ∅
  lastTabledWasExternal := false
  nextExternal := none
  blacklist := ∅
  cancellations := ∅

/-- The minimum is accepted from an account that has it, by a currency that never refuses. -/
theorem propose_openState {price setterPrice : Option ℕ} {minimum : ℕ} (who : A) (h : H)
    (hc : c ∈ cfg.governanceCurrencyIds) (hproposals : 0 < cfg.maxProposals)
    (hminimum : (openState c price setterPrice minimum : State A H).minimumDeposit cfg c
      = some minimum) :
    ∃ s', (propose { cfg with rules := Reserves.Rules.permissive } who h c minimum).run
      (openState c price setterPrice minimum) = .ok () s' := by
  have hfunds : minimum ≤ ((openState c price setterPrice minimum : State A H).tokens c).free who :=
    Nat.le_refl _
  obtain ⟨r, hr, -⟩ := Reserves.reserve_of_le Reserves.Rules.permissive _ rfl hfunds
  have hreserve : (reserve { cfg with rules := Reserves.Rules.permissive } c who minimum).run
      (openState c price setterPrice minimum : State A H)
        = .ok () ((openState c price setterPrice minimum).setTokens c r) :=
    Dispatch.run_onComponent_ok.mpr ⟨r, hr, rfl⟩
  simp only [propose, Dispatch.run_bind_ok, Dispatch.run_ensure_ok, Dispatch.run_get_ok,
    Dispatch.run_okOr_ok, Dispatch.run_modify_ok]
  exact ⟨_, (), _, ⟨hc, rfl⟩, _, _, ⟨rfl, rfl⟩, minimum, _, ⟨hminimum, rfl⟩, (), _,
    ⟨Nat.le_refl _, rfl⟩, (), _, ⟨hproposals, rfl⟩, (), _, rfl, (), _, hreserve, rfl⟩

/-- **Every accepted deposit is worth the minimum exactly if** the currency is the Setter itself or
at least as dear, or nothing is asked for. Multiples are exact here: one past the balance type asks
for more than anyone can deposit. -/
theorem deposits_worth_iff [Nonempty A] [Nonempty H] {price setterPrice : Option ℕ}
    (hc : c ∈ cfg.governanceCurrencyIds) (hne : cfg.nativeCurrencyId ≠ cfg.setterCurrencyId)
    (hmin : cfg.minimumDeposit ≤ Balance.maxValue) :
    DepositsWorth cfg c price setterPrice ↔
      c = cfg.setterCurrencyId ∨
      (∀ p q, price = some p → setterPrice = some q → q ≤ p) ∨
      cfg.minimumDeposit * cfg.multiple c = 0 ∨ cfg.maxProposals = 0 := by
  constructor
  · intro hworth
    by_contra hnot
    simp only [not_or, not_forall, not_le, exists_prop] at hnot
    obtain ⟨hsetter, ⟨p, q, hp, hq, hlt⟩, hasked, hproposals⟩ := hnot
    have hmultiple : cfg.multiple c ≠ 0 := (mul_ne_zero_iff.mp hasked).2
    -- an amount below the minimum is asked for, and accepted
    obtain ⟨r, base, hr, hbase, hle⟩ := base_le_of_le (by omega) hlt.le hmin
    obtain ⟨who⟩ := ‹Nonempty A›
    obtain ⟨h⟩ := ‹Nonempty H›
    have hminimum : (openState c price setterPrice (base * cfg.multiple c) :
        State A H).minimumDeposit cfg c = some (base * cfg.multiple c) := by
      rw [minimumDeposit_of_relative hsetter hmultiple]
      apply relativeMinimum_eq_some.mpr
      exact ⟨p, q, r, base, (if_pos rfl).trans hp, hq, hr, hbase, rfl⟩
    obtain ⟨s', hrun⟩ := propose_openState who h hc (Nat.pos_of_ne_zero hproposals) hminimum
    have hleast := hworth _ _ s' who h _ () (if_pos rfl) rfl hrun
    rw [Config.priceInSetter, if_neg hsetter, hp, hq, Option.getD_some, Option.getD_some,
      ← mul_div_assoc, le_div_iff₀ (by exact_mod_cast (by omega : 0 < q))] at hleast
    have hnat : cfg.minimumDeposit * cfg.multiple c * q ≤ base * cfg.multiple c * p := by
      exact_mod_cast hleast
    have hbelow : base * cfg.multiple c * p < cfg.minimumDeposit * cfg.multiple c * q := by
      calc base * cfg.multiple c * p
          ≤ cfg.minimumDeposit * cfg.multiple c * p :=
            Nat.mul_le_mul_right _ (Nat.mul_le_mul_right _ hle)
        _ < cfg.minimumDeposit * cfg.multiple c * q :=
            Nat.mul_lt_mul_of_pos_left hlt (Nat.pos_of_ne_zero hasked)
    omega
  · intro hcond rules s s' who h value u hprice hsetterPrice hrun
    obtain ⟨⟨minimum, hminimum, hvalue⟩, hproposals⟩ := propose_minimum hrun
    change s.minimumDeposit cfg c = some minimum at hminimum
    change 0 < cfg.maxProposals at hproposals
    have hcast : (minimum : ℚ) ≤ value := by exact_mod_cast hvalue
    by_cases hsetter : c = cfg.setterCurrencyId
    · subst hsetter
      rw [minimumDeposit_of_setter hne] at hminimum
      cases hminimum
      rw [Config.priceInSetter, if_pos rfl, mul_one]
      push_cast at hcast
      exact hcast
    · rw [Config.priceInSetter, if_neg hsetter]
      by_cases hasked : cfg.minimumDeposit * cfg.multiple c = 0
      · have hnothing : (cfg.minimumDeposit * cfg.multiple c : ℚ) = 0 := by
          exact_mod_cast hasked
        rw [hnothing]
        positivity
      · have hprices : ∀ p q, price = some p → setterPrice = some q → q ≤ p := by
          rcases hcond with h | h | h | h
          · exact absurd h hsetter
          · exact h
          · exact absurd h hasked
          · omega
        rw [minimumDeposit_of_relative hsetter (mul_ne_zero_iff.mp hasked).2] at hminimum
        obtain ⟨p, q, r, base, hp, hq, hr, hbase, rfl⟩ := relativeMinimum_eq_some.mp hminimum
        rw [hprice] at hp
        rw [hsetterPrice] at hq
        have hle := hprices p q hp hq
        have hqpos : 0 < q := (FixedU128.checkedDiv_eq_some.mp hr).1
        have hface : ((cfg.minimumDeposit * cfg.multiple c : ℕ) : ℚ)
            ≤ (base * cfg.multiple c : ℕ) := by
          exact_mod_cast Nat.mul_le_mul_right _ (le_base_of_le hle hr hbase)
        have hone : (1 : ℚ) ≤ p / q := by
          rw [one_le_div (by exact_mod_cast hqpos)]
          exact_mod_cast hle
        rw [hp, hq, Option.getD_some, Option.getD_some]
        calc (cfg.minimumDeposit * cfg.multiple c : ℚ)
            = ((cfg.minimumDeposit * cfg.multiple c : ℕ) : ℚ) := by push_cast; rfl
          _ ≤ value := hface.trans hcast
          _ = value * 1 := (mul_one _).symm
          _ ≤ value * (p / q) := mul_le_mul_of_nonneg_left hone (Nat.cast_nonneg value)

/-- A minimum of a hundred Setter. -/
def hundredConfig : Config ℕ ℕ := { sampleConfig with minimumDeposit := 100 }

theorem deposits_worth_iff_native :
    DepositsWorth hundredConfig (.Token .DNAR) (some (3 * 10 ^ 18)) (some (10 ^ 18)) ↔
      CurrencyId.Token .DNAR = hundredConfig.setterCurrencyId ∨
      (∀ p q, some (3 * 10 ^ 18) = some p → some (10 ^ 18) = some q → q ≤ p) ∨
      hundredConfig.minimumDeposit * hundredConfig.multiple (.Token .DNAR) = 0 ∨
      hundredConfig.maxProposals = 0 :=
  deposits_worth_iff (by decide) (by decide) (by decide)

/-- **A deposit can be worth a hundredth of the minimum.** At a tenth of a Setter, 10 are asked for
and not 1000. -/
theorem deposit_worth_one :
    let s : State ℕ ℕ := { sampleGenesis with price := fun _ => some (10 ^ 17) }
    let call := propose hundredConfig 1 0 (.Token .DNAR) 10
    s.setterFixedPrice = some (10 ^ 18) ∧ Dispatch.succeeds call s = true ∧
      ((Dispatch.commit call s).tokens (.Token .DNAR)).reserved 1 = 10 ∧
      ¬ hundredConfig.minimumDeposit * hundredConfig.multiple (.Token .DNAR) * 10 ^ 18
        ≤ 10 * 10 ^ 17 := by
  decide +kernel

end Setheum.Democracy
