import Setheum.Prices.Model

/-!
# In which unit prices are quoted

The market price of a stable currency is that of one base unit, its decimals divided out, and its
fixed price that of a whole unit. They are compared as they are.

* `basketIsMean_iff` — the price of the Setter's basket is the mean of its ten prices exactly if
  their sum fits.
* `quotedAlike_iff` — a currency that trades at its peg has its fixed price for its market price
  exactly if it has eighteen decimals, or is worth nothing.
* `unitsAgree_iff` — both at once, for every stable currency.
-/

set_option autoImplicit false

namespace Setheum.Prices

variable {cfg : Config} {s : State}

/-! ## The basket -/

theorem mapM_ok {f : CurrencyId → Answer} {cs : List CurrencyId} {ps : List ℕ} :
    cs.mapM f = .ok ps ↔ cs.map f = ps.map .ok := by
  induction cs generalizing ps with
  | nil => cases ps <;> simp [pure, Except.pure]
  | cons c cs ih =>
      rw [List.mapM_cons, List.map_cons]
      cases hc : f c with
      | error e => cases ps <;> simp
      | ok p =>
          cases hcs : cs.mapM f with
          | error e =>
              cases ps with
              | nil => simp
              | cons q qs =>
                  have hne : cs.map f ≠ qs.map .ok := fun h => by
                    rw [ih.mpr h] at hcs
                    cases hcs
                  simp [hne]
          | ok qs =>
              have hqs := ih.mp hcs
              cases ps with
              | nil => simp [pure, Except.pure]
              | cons q qs' =>
                  rw [hqs]
                  simp [pure, Except.pure, List.map_inj_right]

/-- A price that is missing is missed. -/
theorem mapM_unavailable {f : CurrencyId → Answer} (hf : ∀ c, f c ≠ .error .overflow)
    {cs : List CurrencyId} (hmissing : ∃ c ∈ cs, ∀ p, f c ≠ .ok p) :
    cs.mapM f = .error .unavailable := by
  induction cs with
  | nil => simp at hmissing
  | cons c cs ih =>
      rw [List.mapM_cons]
      cases hc : f c with
      | error e =>
          cases e with
          | unavailable => rfl
          | overflow => exact absurd hc (hf c)
      | ok p =>
          obtain ⟨c', hc', hne⟩ := hmissing
          rcases List.mem_cons.mp hc' with rfl | hmem
          · exact absurd hc (hne p)
          · rw [ok_bind, ih ⟨c', hmem, hne⟩, error_bind]

/-- Adding prices up either gives their sum or overflows. -/
theorem foldlM_add (ps : List ℕ) {a : ℕ} (ha : a ≤ Balance.maxValue) :
    ps.foldlM add a =
      if a + ps.sum ≤ Balance.maxValue then .ok (a + ps.sum) else .error .overflow := by
  induction ps generalizing a with
  | nil => simp [ha, pure, Except.pure]
  | cons p ps ih =>
      rw [List.foldlM_cons, List.sum_cons, ← Nat.add_assoc]
      by_cases hp : a + p ≤ Balance.maxValue
      · rw [add, if_pos hp, ok_bind, ih hp]
      · rw [add, if_neg hp, error_bind, if_neg (by omega)]

/-- The last place of a price apart, `b` is the mean of the ten prices. -/
def IsMean (b : ℕ) (prices : List ℕ) : Prop := b * 10 < prices.sum + 10 ∧ prices.sum < b * 10 + 10

/-- The basket's price is the mean of its ten prices when they are all available, and none when one
is missing. -/
def BasketIsMean (cfg : Config) (s : State) : Prop :=
  (∀ prices : List ℕ, cfg.setterPegCurrencyIds.map (getFiatPrice cfg s) = prices.map .ok →
    ∃ b, getSetterBasketPegPrice cfg s = .ok b ∧ IsMean b prices) ∧
  ((∃ c ∈ cfg.setterPegCurrencyIds, ∀ p, getFiatPrice cfg s c ≠ .ok p) →
    getSetterBasketPegPrice cfg s = .error .unavailable)

/-- The ten prices, if there are ten, add up to a price. -/
def BasketFits (cfg : Config) (s : State) : Prop :=
  ∀ prices : List ℕ, cfg.setterPegCurrencyIds.map (getFiatPrice cfg s) = prices.map .ok →
    prices.sum ≤ Balance.maxValue

/-- A sum that fits is divided by ten. -/
theorem checkedDiv_ten {total : ℕ} (htotal : total ≤ Balance.maxValue) :
    ∃ b, FixedU128.checkedDiv total (priceTryFromBalance 10) = some b ∧
      b * 10 < total + 10 ∧ total < b * 10 + 10 := by
  have hten : priceTryFromBalance 10 = 10 * FixedU128.accuracy := by decide
  have hpos : 0 < 10 * FixedU128.accuracy := by decide
  have hle : FixedU128.quotient (total * FixedU128.accuracy) (10 * FixedU128.accuracy) ≤ total := by
    apply FixedU128.quotient_le
    rw [Nat.mul_comm 10, ← Nat.mul_assoc]
    exact Nat.le_mul_of_pos_right _ (by decide)
  have hwithin := FixedU128.quotient_within (total * FixedU128.accuracy) hpos
  generalize hb : FixedU128.quotient (total * FixedU128.accuracy) (10 * FixedU128.accuracy) = b
    at hle hwithin
  refine ⟨b, ?_, ?_⟩
  · rw [hten]
    exact FixedU128.checkedDiv_eq_some.mpr ⟨hpos, hb, hle.trans htotal⟩
  · unfold FixedU128.accuracy at hwithin
    omega

theorem getSetterBasketPegPrice_eq {prices : List ℕ}
    (hprices : cfg.setterPegCurrencyIds.map (getFiatPrice cfg s) = prices.map .ok) :
    getSetterBasketPegPrice cfg s =
      if prices.sum ≤ Balance.maxValue then
        okOr (FixedU128.checkedDiv prices.sum (priceTryFromBalance 10))
      else .error .overflow := by
  unfold getSetterBasketPegPrice
  rw [mapM_ok.mpr hprices, ok_bind, foldlM_add prices (Nat.zero_le _), Nat.zero_add]
  split
  · rw [ok_bind]
  · rw [error_bind]

/-- **The basket's price is the mean of its prices exactly if their sum fits.** -/
theorem basketIsMean_iff (cfg : Config) (s : State) : BasketIsMean cfg s ↔ BasketFits cfg s := by
  constructor
  · intro h prices hprices
    obtain ⟨b, hb, -⟩ := h.1 prices hprices
    rw [getSetterBasketPegPrice_eq hprices] at hb
    by_contra hsum
    rw [if_neg hsum] at hb
    cases hb
  · intro h
    constructor
    · intro prices hprices
      obtain ⟨b, hb, hmean⟩ := checkedDiv_ten (h prices hprices)
      refine ⟨b, ?_, hmean⟩
      rw [getSetterBasketPegPrice_eq hprices, if_pos (h prices hprices), hb, okOr_some]
    · intro hmissing
      unfold getSetterBasketPegPrice
      rw [mapM_unavailable getFiatPrice_ne_overflow hmissing, error_bind]

/-! ## The market price at the peg -/

/-- What a whole unit of a stable currency's peg is worth. -/
def pegUnitPrice (cfg : Config) (s : State) (c : CurrencyId) : Answer :=
  if c = cfg.setterCurrencyId then getSetterBasketPegPrice cfg s
  else if c = cfg.settUSDCurrencyId then .ok cfg.fiatUsdFixedPrice
  else okOr ((cfg.pegCurrencyIds c).bind (feedPrice s))

/-- A stable currency whose whole unit is quoted at the price of its peg has its fixed price for
its market price. -/
def MarketAgrees (cfg : Config) (s : State) : Prop :=
  ∀ c ∈ cfg.stableCurrencyIds, ∀ p d, s.decimals c = some d → feedPrice s c = some p →
    pegUnitPrice cfg s c = .ok p →
    getStablecoinMarketPrice cfg s c = getStablecoinFixedPrice cfg s c

/-- The currency's peg is one of the fiat currencies. -/
def HasListedPeg (cfg : Config) (c : CurrencyId) : Prop :=
  ∃ fiat ∈ cfg.fiatCurrencyIds, cfg.pegCurrencyIds c = some fiat

instance (c : CurrencyId) : Decidable (HasListedPeg cfg c) :=
  inferInstanceAs (Decidable (∃ fiat ∈ _, _))

/-- The multiplier of so many decimals and the price adjusted by it fit their types. -/
def Adjustable (p d : ℕ) : Prop :=
  10 ^ d ≤ Balance.maxValue ∧
    FixedU128.quotient (p * FixedU128.accuracy) (10 ^ d) ≤ Balance.maxValue

/-- With a listed peg the adjustment must change nothing, and without one there must be no market
price either. -/
def QuotedAlike (cfg : Config) (c : CurrencyId) (p d : ℕ) : Prop :=
  if HasListedPeg cfg c then (d = 18 ∨ p = 0) ∧ 10 ^ d ≤ Balance.maxValue else ¬ Adjustable p d

/-- An adjustment leaves a price as it is only at eighteen decimals, or if it is zero. -/
theorem quotient_pow_eq_iff (p d : ℕ) :
    FixedU128.quotient (p * FixedU128.accuracy) (10 ^ d) = p ↔ d = 18 ∨ p = 0 := by
  have hpos : 0 < 10 ^ d := Nat.pow_pos (by decide)
  have hwithin := FixedU128.quotient_within (p * FixedU128.accuracy) hpos
  constructor
  · intro h
    rw [h] at hwithin
    obtain ⟨hupper, hlower⟩ := hwithin
    rcases Nat.lt_trichotomy d 18 with hlt | heq | hgt
    · -- too few decimals: the adjusted price is at least ten times as high
      have hscale : 10 * 10 ^ d ≤ FixedU128.accuracy := by
        rw [← Nat.pow_succ']
        exact Nat.pow_le_pow_right (by decide) hlt
      have hten : p * (10 * 10 ^ d) ≤ p * FixedU128.accuracy := Nat.mul_le_mul_left p hscale
      right
      by_contra hne
      have hunit : 10 ^ d ≤ p * 10 ^ d := Nat.le_mul_of_pos_left _ (Nat.pos_of_ne_zero hne)
      rw [Nat.mul_left_comm] at hten
      omega
    · exact .inl heq
    · -- too many: it is at most a tenth
      have hscale : 10 * FixedU128.accuracy ≤ 10 ^ d := by
        have hpow : 10 * FixedU128.accuracy = 10 ^ 19 := by decide
        rw [hpow]
        exact Nat.pow_le_pow_right (by decide) hgt
      right
      by_contra hne
      rcases Nat.lt_or_ge 1 p with hmany | hone
      · have hrest : (p - 1) * (10 * FixedU128.accuracy) ≤ (p - 1) * 10 ^ d :=
          Nat.mul_le_mul_left _ hscale
        have hsplit : p * 10 ^ d = (p - 1) * 10 ^ d + 10 ^ d := by
          rw [← Nat.succ_mul]
          congr 1
          omega
        unfold FixedU128.accuracy at hrest hupper
        omega
      · obtain rfl : p = 1 := by omega
        rw [FixedU128.quotient_eq_div (.inl (by decide)),
          Nat.div_eq_of_lt (lt_of_lt_of_le (by decide) hscale)] at h
        cases h
  · rintro (rfl | rfl)
    · obtain ⟨hupper, hlower⟩ := hwithin
      generalize FixedU128.quotient (p * FixedU128.accuracy) (10 ^ 18) = q at *
      unfold FixedU128.accuracy at *
      omega
    · rw [Nat.zero_mul, FixedU128.quotient_eq_div (.inl (Nat.zero_le _)), Nat.zero_div]

/-- **A stable currency that trades at its peg has its fixed price for its market price exactly if
it has eighteen decimals or is worth nothing.** -/
theorem quotedAlike_iff {c : CurrencyId} (hc : c ∈ cfg.stableCurrencyIds) {p d : ℕ}
    (hd : s.decimals c = some d) (hfeed : feedPrice s c = some p)
    (hpeg : pegUnitPrice cfg s c = .ok p) :
    getStablecoinMarketPrice cfg s c = getStablecoinFixedPrice cfg s c ↔
      QuotedAlike cfg c p d := by
  rw [getStablecoinMarketPrice_eq hc, hfeed, okOr_some]
  unfold QuotedAlike
  split
  · rename_i hlisted
    obtain ⟨fiat, hfiat, hfiatPeg⟩ := hlisted
    have hfixed : getStablecoinFixedPrice cfg s c = .ok p := by
      rw [getStablecoinFixedPrice_of_listed hc hfiatPeg hfiat, ← hpeg, pegUnitPrice, hfiatPeg]
      rfl
    rw [hfixed]
    by_cases hfits : 10 ^ d ≤ Balance.maxValue
    · rw [adjusted_ok hd hfits, okOr_ok, FixedU128.checkedFromRational_eq_some,
        quotient_pow_eq_iff]
      have hpos : 0 < 10 ^ d := Nat.pow_pos (by decide)
      simp [hpos, hfits, feedPrice_le hfeed]
    · rw [adjusted_of_not_fits hd hfits]
      simp [hfits]
  · rename_i hlisted
    rw [getStablecoinFixedPrice_of_not_listed fun fiat hfiatPeg hfiat =>
      hlisted ⟨fiat, hfiat, hfiatPeg⟩]
    unfold Adjustable
    by_cases hfits : 10 ^ d ≤ Balance.maxValue
    · rw [adjusted_ok hd hfits]
      cases hq : FixedU128.checkedFromRational p (10 ^ d) with
      | none =>
          have hnone : ¬ FixedU128.quotient (p * FixedU128.accuracy) (10 ^ d)
              ≤ Balance.maxValue := fun hle => by
            have hsome := FixedU128.checkedFromRational_eq_some.mpr
              ⟨Nat.pow_pos (by decide : 0 < 10), rfl, hle⟩
            rw [hq] at hsome
            cases hsome
          simp [hnone]
      | some q =>
          obtain ⟨-, rfl, hle⟩ := FixedU128.checkedFromRational_eq_some.mp hq
          simp [hfits, hle]
    · rw [adjusted_of_not_fits hd hfits]
      simp [hfits]

/-- **Peg and market prices agree on the unit if and only if the ten prices of the basket add up
to a price and every stable currency that trades at its peg is quoted alike.** -/
theorem unitsAgree_iff (cfg : Config) (s : State) :
    BasketIsMean cfg s ∧ MarketAgrees cfg s ↔
      BasketFits cfg s ∧
        ∀ c ∈ cfg.stableCurrencyIds, ∀ p d, s.decimals c = some d → feedPrice s c = some p →
          pegUnitPrice cfg s c = .ok p → QuotedAlike cfg c p d := by
  rw [basketIsMean_iff]
  refine and_congr_right fun _ => ?_
  constructor
  · intro h c hc p d hd hfeed hpeg
    exact (quotedAlike_iff hc hd hfeed hpeg).mp (h c hc p d hd hfeed hpeg)
  · intro h c hc p d hd hfeed hpeg
    exact (quotedAlike_iff hc hd hfeed hpeg).mpr (h c hc p d hd hfeed hpeg)

/-- The currencies of the runtime; the Setter has no fiat peg. -/
def sampleConfig : Config where
  setterCurrencyId := .Token .SETT
  settUSDCurrencyId := .Token .USDJ
  fiatUSDCurrencyId := .Token .USD
  fiatUsdFixedPrice := 10 ^ 18
  stableCurrencyIds := [.Token .SETT, .Token .USDJ, .Token .EURJ, .Token .GBPJ, .Token .CHFJ]
  fiatCurrencyIds :=
    [.Token .USD, .Token .EUR, .Token .GBP, .Token .CHF, .Token .KWD, .Token .JOD, .Token .BHD,
      .Token .KYD, .Token .OMR, .Token .GIP]
  pegCurrencyIds
    | .Token .USDJ => some (.Token .USD)
    | .Token .EURJ => some (.Token .EUR)
    | .Token .GBPJ => some (.Token .GBP)
    | .Token .CHFJ => some (.Token .CHF)
    | _ => none
  setterPegCurrencyIds :=
    [.Token .GBP, .Token .EUR, .Token .KWD, .Token .JOD, .Token .BHD, .Token .KYD, .Token .OMR,
      .Token .CHF, .Token .GIP, .Token .USD]
  setterPegCurrencyIds_length := rfl
  stable_notMem_fiat := by decide
  stable_ne_dexShare := by simp

/-- The oracle prices everything at one dollar, and everything has twelve decimals. -/
def sampleState : State where
  lockedPrice := ∅
  source _ := some (10 ^ 18)
  liquidityPool _ _ := (0, 0)
  totalIssuance _ := 0
  decimals _ := some 12
  lockedPrice_le _ _ h := by cases h
  source_le _ _ h := by
    cases h
    decide

/-- **A SettUSD that trades at one dollar is quoted at a million times its fixed price.** -/
theorem quoted_a_millionfold :
    getStablecoinMarketPrice sampleConfig sampleState (.Token .USDJ) = .ok (10 ^ 24) ∧
      ¬ (BasketIsMean sampleConfig sampleState ∧ MarketAgrees sampleConfig sampleState) := by
  have hmarket : getStablecoinMarketPrice sampleConfig sampleState (.Token .USDJ)
      = .ok (10 ^ 24) := by decide +kernel
  have hfixed : getStablecoinFixedPrice sampleConfig sampleState (.Token .USDJ)
      = .ok (10 ^ 18) := by decide +kernel
  refine ⟨hmarket, fun h => ?_⟩
  have hagree := h.2 (.Token .USDJ) (by decide) (10 ^ 18) 12 rfl rfl rfl
  rw [hmarket, hfixed] at hagree
  revert hagree
  decide

end Setheum.Prices
