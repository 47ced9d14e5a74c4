import Setheum.Serp.Treasury

/-!
# In which direction the supply moves

The difference that decides the direction is one hundred minus the price in percent of the peg. It
is positive when the market is below the peg, and a negative one fails its conversion to a
balance. So a currency under its peg is expanded and one above it is left alone.

* `serpTes_ok` — what `serpTes` does whenever it succeeds: it expands a currency under its peg.
* `serpDowns_serpTes` — no run of `serpTes` contracts the supply of any currency.
* `elastic_direction_iff` — the supply moves as intended exactly when it need not move at all.
-/

set_option autoImplicit false

namespace Setheum.Serp

variable {A : Type} [DecidableEq A] {cfg : Config A}

/-- How often the supply of a currency was expanded. -/
def State.serpUps (s : State A) (c : CurrencyId) : ℕ :=
  s.events.countP fun e =>
    match e with
    | .CurrencySerpedUp _ c' => c' = c
    | _ => false

/-- How often a contraction of the supply of a currency was started. -/
def State.serpDowns (s : State A) (c : CurrencyId) : ℕ :=
  s.events.countP fun e =>
    match e with
    | .CurrencySerpDownTriggered _ c' => c' = c
    | _ => false

/-- How far the market is from the peg. -/
def deviation (market peg : ℕ) : ℕ := ((market : ℤ) - peg).natAbs

/-- The supply moves against the price: expanded above the peg and contracted below it once they
are a percent apart, and left alone when they are equal. -/
def ElasticDirection (cfg : Config A) (c : CurrencyId) (market peg : ℕ) (s : State A) : Prop :=
  (peg ≤ 100 * deviation market peg →
    (peg < market → (Dispatch.commit (serpTes cfg c) s).serpUps c = s.serpUps c + 1) ∧
    (market < peg → (Dispatch.commit (serpTes cfg c) s).serpDowns c = s.serpDowns c + 1)) ∧
  (market = peg →
    (Dispatch.commit (serpTes cfg c) s).ledger.issuance = s.ledger.issuance)

/-! ## What an expansion does -/

omit [DecidableEq A] in
theorem neverFails_depositEvent (e : Event) :
    Dispatch.NeverFails (depositEvent e : SerpM A Unit) := Dispatch.neverFails_modify _

theorem neverFails_deliverSerpup (ratio : ℕ) (account : A) (amount : ℕ) (c : CurrencyId) :
    Dispatch.NeverFails (deliverSerpup cfg ratio account amount c) :=
  Dispatch.neverFails_bind (Dispatch.neverFails_ignore _) fun _ => neverFails_depositEvent _

theorem failsClean_onSerpup (c : CurrencyId) (amount : ℕ) :
    Dispatch.FailsClean (onSerpup cfg c amount) := by
  refine Dispatch.failsClean_bind Dispatch.silent_ensure fun _ => ?_
  refine Dispatch.failsClean_bind Dispatch.silent_ensure fun _ => ?_
  apply Dispatch.NeverFails.failsClean
  refine Dispatch.neverFails_bind (neverFails_deliverSerpup _ _ _ _) fun _ => ?_
  refine Dispatch.neverFails_bind (neverFails_deliverSerpup _ _ _ _) fun _ => ?_
  refine Dispatch.neverFails_bind (neverFails_deliverSerpup _ _ _ _) fun _ => ?_
  refine Dispatch.neverFails_bind (neverFails_deliverSerpup _ _ _ _) fun _ => ?_
  exact neverFails_depositEvent _

theorem preserves_serpDowns_deliverSerpup (cfg : Config A) (c' : CurrencyId) (k ratio : ℕ)
    (account : A) (amount : ℕ) (c : CurrencyId) :
    Dispatch.Preserves (fun s : State A => s.serpDowns c' = k)
      (deliverSerpup cfg ratio account amount c) := by
  refine Dispatch.preserves_bind (Dispatch.preserves_ignore ?_) fun _ => ?_
  · exact Dispatch.preserves_onComponent fun _ _ h => h
  · exact Dispatch.preserves_modify fun s h => by simpa [State.serpDowns] using h

theorem preserves_serpDowns_onSerpup (c' : CurrencyId) (k : ℕ) (c : CurrencyId) (amount : ℕ) :
    Dispatch.Preserves (fun s : State A => s.serpDowns c' = k) (onSerpup cfg c amount) := by
  have hdeliver := preserves_serpDowns_deliverSerpup cfg c' k
  refine Dispatch.preserves_bind Dispatch.preserves_ensure fun _ => ?_
  refine Dispatch.preserves_bind Dispatch.preserves_ensure fun _ => ?_
  refine Dispatch.preserves_bind (hdeliver _ _ _ _) fun _ => ?_
  refine Dispatch.preserves_bind (hdeliver _ _ _ _) fun _ => ?_
  refine Dispatch.preserves_bind (hdeliver _ _ _ _) fun _ => ?_
  refine Dispatch.preserves_bind (hdeliver _ _ _ _) fun _ => ?_
  exact Dispatch.preserves_modify fun s h => by simpa [State.serpDowns] using h

/-! ## What `serpTes` does -/

omit [DecidableEq A] in
theorem failsClean_openSerpdownAuction (c : CurrencyId) (amount : ℕ) :
    Dispatch.FailsClean (openSerpdownAuction cfg c amount) := by
  refine Dispatch.failsClean_bind Dispatch.silent_get fun s => ?_
  refine Dispatch.failsClean_bind Dispatch.silent_okOr fun setterFixedPrice => ?_
  split
  · refine Dispatch.failsClean_bind Dispatch.silent_okOr fun dinarPrice => ?_
    refine Dispatch.failsClean_bind Dispatch.silent_okOr fun relativePrice => ?_
    refine Dispatch.failsClean_bind Dispatch.silent_okOr fun initialAmount => ?_
    refine Dispatch.failsClean_bind Dispatch.silent_ensure fun _ => ?_
    exact (Dispatch.neverFails_ignore _).failsClean
  · refine Dispatch.failsClean_bind Dispatch.silent_okOr fun settcurrencyFixedPrice => ?_
    refine Dispatch.failsClean_bind Dispatch.silent_okOr fun relativePrice => ?_
    refine Dispatch.failsClean_bind Dispatch.silent_okOr fun initialSetterAmount => ?_
    refine Dispatch.failsClean_bind Dispatch.silent_ensure fun _ => ?_
    exact (Dispatch.neverFails_ignore _).failsClean

omit [DecidableEq A] in
theorem failsClean_onSerpdown (c : CurrencyId) (amount : ℕ) :
    Dispatch.FailsClean (onSerpdown cfg c amount) := by
  refine Dispatch.failsClean_bind Dispatch.silent_ensure fun _ => ?_
  exact Dispatch.failsClean_bind_neverFails (failsClean_openSerpdownAuction c amount)
    fun _ => neverFails_depositEvent _

theorem failsClean_serpTes (cfg : Config A) (c : CurrencyId) :
    Dispatch.FailsClean (serpTes cfg c) := by
  refine Dispatch.failsClean_bind Dispatch.silent_ensure fun _ => ?_
  refine Dispatch.failsClean_bind Dispatch.silent_get fun s => ?_
  refine Dispatch.failsClean_bind Dispatch.silent_okOr fun marketPrice => ?_
  refine Dispatch.failsClean_bind Dispatch.silent_okOr fun fixedPrice => ?_
  refine Dispatch.failsClean_bind Dispatch.silent_ofExcept fun fixedPriceAmount => ?_
  refine Dispatch.failsClean_bind Dispatch.silent_ofExcept fun marketPriceAmount => ?_
  refine Dispatch.failsClean_bind Dispatch.silent_okOr fun fixedPricePercentAmount => ?_
  refine Dispatch.failsClean_bind Dispatch.silent_okOr fun percentage => ?_
  refine Dispatch.failsClean_bind Dispatch.silent_okOr fun differedAmount => ?_
  refine Dispatch.failsClean_bind Dispatch.silent_ofExcept fun differedAmountBalance => ?_
  refine Dispatch.failsClean_bind Dispatch.silent_okOr fun serpSupply => ?_
  refine Dispatch.failsClean_bind Dispatch.silent_ensure fun _ => ?_
  refine Dispatch.failsClean_bind Dispatch.silent_ensure fun _ => ?_
  unfold serp
  split
  · exact failsClean_onSerpup c serpSupply
  · split
    · exact failsClean_onSerpdown c serpSupply
    · exact (Dispatch.neverFails_pure ()).failsClean

theorem balanceTryFromAmount_ok {a : ℤ} {b : ℕ} (h : balanceTryFromAmount a = .ok b) : 0 ≤ a := by
  unfold balanceTryFromAmount at h
  split at h
  · assumption
  · cases h

theorem amountTryFromPriceAbs_ok {p : ℕ} {a : ℤ} (h : amountTryFromPriceAbs p = .ok a) :
    a = p := by
  unfold amountTryFromPriceAbs at h
  split at h
  · cases h
    rfl
  · cases h

theorem checkedDiv_eq_some {a b q : ℤ} (h : Amount.checkedDiv a b = some q) :
    b ≠ 0 ∧ q = a.tdiv b := by
  unfold Amount.checkedDiv at h
  split at h
  · cases h
  · rename_i hb
    cases h
    exact ⟨fun hzero => hb (.inl hzero), rfl⟩

theorem checkedSub_eq_some {a b d : ℤ} (h : Amount.checkedSub a b = some d) : d = a - b := by
  unfold Amount.checkedSub at h
  split at h
  · cases h
    rfl
  · cases h

/-- The price in percent of the peg, as it is computed. -/
theorem percentage_eq {market peg : ℕ} {percent percentage : ℤ}
    (hpercent : Amount.checkedDiv peg 100 = some percent)
    (hpercentage : Amount.checkedDiv market percent = some percentage) :
    0 < peg / 100 ∧ percentage = (market / (peg / 100) : ℕ) := by
  obtain ⟨-, rfl⟩ := checkedDiv_eq_some hpercent
  obtain ⟨hne, rfl⟩ := checkedDiv_eq_some hpercentage
  rw [Int.tdiv_eq_ediv_of_nonneg (by omega)] at hne
  rw [Int.tdiv_eq_ediv_of_nonneg (by omega), Int.tdiv_eq_ediv_of_nonneg (by omega)]
  constructor
  · omega
  · push_cast
    rfl

/-- A price below a hundred percent of the peg is below the peg. -/
theorem lt_of_percentage_lt {market peg : ℕ} (hpos : 0 < peg / 100)
    (hlt : market / (peg / 100) < 100) : market < peg := by
  have hmarket : market < 100 * (peg / 100) := (Nat.div_lt_iff_lt_mul hpos).mp hlt
  omega

/-- **Whenever `serpTes` succeeds, the market is below the peg and the supply is expanded.** -/
theorem serpTes_ok {c : CurrencyId} {s s' : State A} {u : Unit}
    (h : (serpTes cfg c).run s = .ok u s') :
    ∃ market peg, s.prices.stablecoinMarketPrice c = some market ∧
      s.prices.stablecoinFixedPrice c = some peg ∧ 0 < peg / 100 ∧ market / (peg / 100) < 100 ∧
      (onSerpup cfg c (s.ledger.issuance c / 100 * s.ledger.issuance c)).run s = .ok u s' := by
  simp only [serpTes, Dispatch.run_bind_ok, Dispatch.run_ensure_ok, Dispatch.run_get_ok,
    Dispatch.run_okOr_ok, Dispatch.run_ofExcept_ok] at h
  obtain ⟨_, _, ⟨-, rfl⟩, _, _, ⟨rfl, rfl⟩, market, _, ⟨hmarket, rfl⟩, peg, _, ⟨hpeg, rfl⟩, h⟩ := h
  obtain ⟨pegAmount, _, ⟨hpegAmount, rfl⟩, marketAmount, _, ⟨hmarketAmount, rfl⟩, h⟩ := h
  obtain ⟨percent, _, ⟨hpercent, rfl⟩, percentage, _, ⟨hpercentage, rfl⟩, h⟩ := h
  obtain ⟨differed, _, ⟨hdiffered, rfl⟩, balance, _, ⟨hbalance, rfl⟩, h⟩ := h
  obtain ⟨serpSupply, _, ⟨hsupply, rfl⟩, _, _, ⟨hne, rfl⟩, _, _, ⟨-, rfl⟩, hserp⟩ := h
  have hnonneg : 0 ≤ differed := balanceTryFromAmount_ok hbalance
  have hpos : 0 < differed := by omega
  have heq : differed = 100 - percentage := checkedSub_eq_some hdiffered
  have hpegEq : pegAmount = peg := amountTryFromPriceAbs_ok hpegAmount
  have hmarketEq : marketAmount = market := amountTryFromPriceAbs_ok hmarketAmount
  subst hpegEq hmarketEq
  obtain ⟨hpercentPos, hvalue⟩ := percentage_eq hpercent hpercentage
  obtain ⟨rfl, -⟩ := Balance.checkedMul_eq_some.mp hsupply
  refine ⟨market, peg, hmarket, hpeg, hpercentPos, by omega, ?_⟩
  rwa [serp, if_pos hpos] at hserp

/-- What `serpTes` leaves behind: an expansion of a currency under its peg, or nothing. -/
theorem commit_serpTes (cfg : Config A) (c : CurrencyId) (s : State A) :
    (∃ market peg serpSupply, s.prices.stablecoinMarketPrice c = some market ∧
      s.prices.stablecoinFixedPrice c = some peg ∧ market < peg ∧
      Dispatch.commit (serpTes cfg c) s = Dispatch.commit (onSerpup cfg c serpSupply) s) ∨
    Dispatch.commit (serpTes cfg c) s = s := by
  rcases (failsClean_serpTes cfg c).commit_cases s with ⟨_, hrun⟩ | hsame
  · obtain ⟨market, peg, hmarket, hpeg, hpos, hlt, hup⟩ := serpTes_ok hrun
    exact .inl ⟨market, peg, _, hmarket, hpeg, lt_of_percentage_lt hpos hlt,
      (Dispatch.commit_of_ok hup).symm⟩
  · exact .inr hsame

/-- **The treasury never starts a contraction.** -/
theorem serpDowns_serpTes (c c' : CurrencyId) (s : State A) :
    (Dispatch.commit (serpTes cfg c) s).serpDowns c' = s.serpDowns c' := by
  rcases commit_serpTes cfg c s with ⟨_, _, serpSupply, -, -, -, heq⟩ | hsame
  · rw [heq]
    exact preserves_serpDowns_onSerpup c' (s.serpDowns c') c serpSupply s rfl
  · rw [hsame]

/-- **The supply moves as intended exactly when it need not move.** For every currency, state and
positive prices, `serpTes` meets its purpose if and only if the market is within one percent of
the peg. -/
theorem elastic_direction_iff (cfg : Config A) (c : CurrencyId) (s : State A) (market peg : ℕ)
    (hmarket : s.prices.stablecoinMarketPrice c = some market)
    (hpeg : s.prices.stablecoinFixedPrice c = some peg) (hpos : 0 < peg) :
    ElasticDirection cfg c market peg s ↔ 100 * deviation market peg < peg := by
  have hcases : (market < peg ∨ Dispatch.commit (serpTes cfg c) s = s) := by
    rcases commit_serpTes cfg c s with ⟨m, p, _, hm, hp, hlt, -⟩ | hsame
    · rw [hmarket] at hm
      rw [hpeg] at hp
      cases hm
      cases hp
      exact .inl hlt
    · exact .inr hsame
  constructor
  · intro h
    by_contra hfar
    obtain ⟨hup, hdown⟩ := h.1 (by omega)
    rcases Nat.lt_trichotomy market peg with hlt | heq | hgt
    · have hcount := hdown hlt
      rw [serpDowns_serpTes] at hcount
      omega
    · subst heq
      simp [deviation] at hfar
      omega
    · have hsame : Dispatch.commit (serpTes cfg c) s = s := hcases.resolve_left (by omega)
      have hcount := hup hgt
      rw [hsame] at hcount
      omega
  · intro hnear
    refine ⟨fun hfar => absurd hnear (by omega), fun heq => ?_⟩
    rw [hcases.resolve_left (by omega)]

/-- The ratios and sizes of the pallets' tests; every bid is passed on to the manager. -/
def sampleConfig : Config ℕ where
  rules := Ledger.Rules.permissive
  bidAdmitted _ _ _ _ := true
  maxAuctionId := 2 ^ 32 - 1
  diamondAuctionMinimumIncrementSize := 3 * 10 ^ 16
  setterAuctionMinimumIncrementSize := 2 * 10 ^ 16
  serplusAuctionMinimumIncrementSize := 10 ^ 16
  auctionTimeToClose := 100
  auctionDurationSoftCap := 2000
  nativeCurrencyId := .Token .DNAR
  setterCurrencyId := .Token .SETT
  stableCurrencyIds := [.Token .SETT, .Token .USDJ]
  serplusSerpupRatio := 100000
  settPaySerpupRatio := 600000
  setheumTreasurySerpupRatio := 100000
  charityFundSerpupRatio := 200000
  settPayTreasuryAcc := 10
  setheumTreasuryAcc := 11
  charityFundAcc := 12
  accountId := 0

/-- Accounts 1, 2 and 3 hold a thousand units of every currency. -/
def sampleLedger : Ledger CurrencyId ℕ where
  free _ a := if a ∈ [1, 2, 3] then 1000 else 0
  issuance _ := 3000
  free_le _ a := by
    split <;> decide
  issuance_le _ := by decide

/-- No auctions yet; the market price of every stable currency is as given and the pegs are one. -/
def sampleState (marketPrice : ℕ) : State ℕ where
  ledger := sampleLedger
  system := References.provideAll
  blockNumber := 1
  auctions := Auctions.empty
  diamondAuctions := ∅
  setterAuctions := ∅
  serplusAuctions := ∅
  totalSetterInAuction := 0
  totalSettCurrencyInAuction := ∅
  totalSerplusInAuction := ∅
  prices :=
    { stablecoinMarketPrice := fun _ => some marketPrice
      stablecoinFixedPrice := fun _ => some (10 ^ 18)
      setterFixedPrice := some (10 ^ 18)
      price := fun _ => some (10 ^ 18) }
  events := []

theorem elastic_direction_at_peg :
    ElasticDirection sampleConfig (.Token .USDJ) (10 ^ 18) (10 ^ 18) (sampleState (10 ^ 18)) ↔
      100 * deviation (10 ^ 18) (10 ^ 18) < 10 ^ 18 :=
  elastic_direction_iff sampleConfig (.Token .USDJ) (sampleState (10 ^ 18)) (10 ^ 18) (10 ^ 18)
    rfl rfl (by decide)

/-- **A currency at half its peg is expanded further.** -/
theorem expanded_below_peg :
    (Dispatch.commit (serpTes sampleConfig (.Token .USDJ)) (sampleState (5 * 10 ^ 17))).serpUps
        (.Token .USDJ) = 1 ∧
      ¬ ElasticDirection sampleConfig (.Token .USDJ) (5 * 10 ^ 17) (10 ^ 18)
        (sampleState (5 * 10 ^ 17)) := by
  constructor
  · decide +kernel
  · intro h
    have hdown := (h.1 (by decide)).2 (by decide)
    revert hdown
    decide +kernel

end Setheum.Serp
