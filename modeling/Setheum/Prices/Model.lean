import Setheum.Lib.FixedPoint
import Setheum.Lib.StorageMap
import Setheum.Primitives.Currency

/-!
# The price source

A price is what one unit of a currency is worth in US dollars, a `FixedU128` given by its inner
value. Prices come from an oracle, or from a lock that stands in for it; the stable currencies have
a second, fixed price, that of the fiat currency they are pegged to, and the Setter that of a basket
of ten.

The source answers with options and makes checks of them that fail with an error. Here both are
`Failure.unavailable`, so that `none` is a failure wherever a value is needed. An addition that
overflows, which panics or wraps around by how the chain is built, is `Failure.overflow`. The fixed
price of the US dollar is what `getFiatPrice` returns for it, as the comments of the source have it.

* `getFiatPrice_ne_overflow` — the price of a fiat currency is given or not available.
-/

set_option autoImplicit false

namespace Setheum.Prices

open StorageMap

inductive Failure
  | unavailable
  | overflow
  deriving DecidableEq, Repr

structure Config where
  setterCurrencyId : CurrencyId
  settUSDCurrencyId : CurrencyId
  fiatUSDCurrencyId : CurrencyId
  fiatUsdFixedPrice : ℕ
  stableCurrencyIds : List CurrencyId
  fiatCurrencyIds : List CurrencyId
  /-- The fiat peg of a stable currency. -/
  pegCurrencyIds : CurrencyId → Option CurrencyId
  /-- The basket of the Setter, `GetSetterPegOneCurrencyId` to `GetSetterPegTenCurrencyId`. -/
  setterPegCurrencyIds : List CurrencyId
  setterPegCurrencyIds_length : setterPegCurrencyIds.length = 10
  /-- No stable currency is fiat money or a liquidity share. -/
  stable_notMem_fiat : ∀ c ∈ stableCurrencyIds, c ∉ fiatCurrencyIds
  stable_ne_dexShare : ∀ c ∈ stableCurrencyIds, ∀ s t, c ≠ .DexShare s t

/-- What is locked, what the oracle says, and what the other pallets answer. -/
structure State where
  lockedPrice : Map CurrencyId ℕ
  source : CurrencyId → Option ℕ
  liquidityPool : CurrencyId → CurrencyId → ℕ × ℕ
  totalIssuance : CurrencyId → ℕ
  decimals : CurrencyId → Option ℕ
  lockedPrice_le : ∀ c p, lockedPrice.lookup c = some p → p ≤ Balance.maxValue
  source_le : ∀ c p, source c = some p → p ≤ Balance.maxValue

abbrev Answer := Except Failure ℕ

def ensure (p : Prop) [Decidable p] : Except Failure Unit :=
  if p then .ok () else .error .unavailable

def okOr {α : Type} : Option α → Except Failure α
  | some a => .ok a
  | none => .error .unavailable

/-- `FixedU128::add`. -/
def add (a b : ℕ) : Answer :=
  if a + b ≤ Balance.maxValue then .ok (a + b) else .error .overflow

/-- `price_try_from_balance`: an integer as a price. -/
def priceTryFromBalance (b : ℕ) : ℕ := Balance.saturatingMul b FixedU128.accuracy

variable (cfg : Config) (s : State)

/-- The locked price if there is one, and otherwise the latest from the oracle. -/
def feedPrice (c : CurrencyId) : Option ℕ := (s.lockedPrice.lookup c).or (s.source c)

/-! ## Fixed prices -/

def getFiatUsdFixedPrice : ℕ := cfg.fiatUsdFixedPrice

def getSettusdFixedPrice : ℕ := getFiatUsdFixedPrice cfg

/-- The price of a fiat currency. -/
def getFiatPrice (fiatCurrencyId : CurrencyId) : Answer := do
  ensure (fiatCurrencyId ∉ cfg.stableCurrencyIds)
  ensure (fiatCurrencyId ∈ cfg.fiatCurrencyIds)
  if fiatCurrencyId = cfg.fiatUSDCurrencyId then .ok (getFiatUsdFixedPrice cfg)
  else okOr (feedPrice s fiatCurrencyId)

/-- The price of the Setter's basket: all its prices combined, divided by how many they are. -/
def getSetterBasketPegPrice : Answer := do
  let pegPrices ← cfg.setterPegCurrencyIds.mapM (getFiatPrice cfg s)
  let totalBasketWorth ← pegPrices.foldlM add 0
  okOr (FixedU128.checkedDiv totalBasketWorth (priceTryFromBalance 10))

def getSetterFixedPrice : Answer := getSetterBasketPegPrice cfg s

/-- The price of a stable currency's peg. -/
def getPegPrice (c : CurrencyId) : Answer := do
  ensure (c ∈ cfg.stableCurrencyIds)
  let fiatCurrencyId ← okOr (cfg.pegCurrencyIds c)
  ensure (fiatCurrencyId ∈ cfg.fiatCurrencyIds)
  ensure (cfg.pegCurrencyIds c = some fiatCurrencyId)
  if c = cfg.setterCurrencyId then getSetterFixedPrice cfg s
  else if c = cfg.settUSDCurrencyId then .ok (getSettusdFixedPrice cfg)
  else okOr (feedPrice s fiatCurrencyId)

def getStablecoinFixedPrice (c : CurrencyId) : Answer := do
  ensure (c ∈ cfg.stableCurrencyIds)
  getPegPrice cfg s c

/-! ## Prices of one base unit -/

/-- The price of a whole currency divided by ten to the power of its decimals. -/
def adjusted (c : CurrencyId) (maybeFeedPrice : Answer) : Answer := do
  let price ← maybeFeedPrice
  let decimals ← okOr (s.decimals c)
  ensure (10 ^ decimals ≤ Balance.maxValue)
  okOr (FixedU128.checkedFromRational price (10 ^ decimals))

/-- Half of a share as a currency. -/
def token : DexShare → CurrencyId
  | .Token symbol => .Token symbol
  | .Erc20 address => .Erc20 address

/-- The price of a liquidity share: twice what one side of its pool holds for it. -/
def sharePrice (c : CurrencyId) (symbol0 symbol1 : DexShare) (price0 : Answer) : Answer := do
  let price0 ← price0
  let ratio ← okOr (FixedU128.checkedFromRational
    (s.liquidityPool (token symbol0) (token symbol1)).1 (s.totalIssuance c))
  let half ← okOr (FixedU128.checkedMul ratio price0)
  okOr (FixedU128.checkedMul half (2 * FixedU128.accuracy))

/-- The price of a whole unit: of a fiat currency that of the fiat currency, of a stable currency
the fixed price, and of any other what is fed. -/
def wholePrice (c : CurrencyId) : Answer :=
  if c ∈ cfg.fiatCurrencyIds then getFiatPrice cfg s c
  else if c ∈ cfg.stableCurrencyIds then getStablecoinFixedPrice cfg s c
  else okOr (feedPrice s c)

/-- The price of a currency that is no liquidity share. -/
def getTokenPrice (c : CurrencyId) : Answer := adjusted s c (wholePrice cfg s c)

/-- The price of one base unit. -/
def getPrice (c : CurrencyId) : Answer :=
  if c ∈ cfg.fiatCurrencyIds ∨ c ∈ cfg.stableCurrencyIds then getTokenPrice cfg s c
  else
    match c with
    | .DexShare symbol0 symbol1 =>
        sharePrice s c symbol0 symbol1 (getTokenPrice cfg s (token symbol0))
    | c => getTokenPrice cfg s c

/-- The price of one base unit, of a stable currency too, by what the oracle says. -/
def getMarketPrice (c : CurrencyId) : Answer :=
  if c ∈ cfg.fiatCurrencyIds then adjusted s c (getFiatPrice cfg s c)
  else
    match c with
    | .DexShare symbol0 symbol1 =>
        sharePrice s c symbol0 symbol1 (getTokenPrice cfg s (token symbol0))
    | c => adjusted s c (okOr (feedPrice s c))

def getStablecoinMarketPrice (c : CurrencyId) : Answer := do
  ensure (c ∈ cfg.stableCurrencyIds)
  getMarketPrice cfg s c

/-! ## What each of them answers -/

variable {cfg s}

@[simp] theorem ok_bind {α β : Type} (a : α) (f : α → Except Failure β) :
    (Except.ok a >>= f) = f a := rfl

@[simp] theorem error_bind {α β : Type} (e : Failure) (f : α → Except Failure β) :
    (Except.error e >>= f) = .error e := rfl

@[simp] theorem okOr_some {α : Type} (a : α) : okOr (some a) = .ok a := rfl

@[simp] theorem okOr_none {α : Type} : (okOr none : Except Failure α) = .error .unavailable := rfl

theorem okOr_ok {α : Type} {o : Option α} {a : α} : okOr o = .ok a ↔ o = some a := by
  cases o with
  | none => simp
  | some b => simp

theorem ensure_of {p : Prop} [Decidable p] (h : p) : ensure p = .ok () := if_pos h

theorem ensure_of_not {p : Prop} [Decidable p] (h : ¬ p) : ensure p = .error .unavailable :=
  if_neg h

theorem feedPrice_le {c : CurrencyId} {p : ℕ} (h : feedPrice s c = some p) :
    p ≤ Balance.maxValue := by
  unfold feedPrice at h
  cases hlocked : s.lockedPrice.lookup c with
  | none =>
      rw [hlocked] at h
      exact s.source_le c p h
  | some q =>
      rw [hlocked] at h
      have hq : q = p := Option.some.inj h
      exact hq ▸ s.lockedPrice_le c q hlocked

/-- The price of a fiat currency is given or not available. -/
theorem getFiatPrice_ne_overflow (c : CurrencyId) : getFiatPrice cfg s c ≠ .error .overflow := by
  unfold getFiatPrice
  by_cases hstable : c ∈ cfg.stableCurrencyIds
  · simp [ensure_of_not (not_not.mpr hstable)]
  · by_cases hfiat : c ∈ cfg.fiatCurrencyIds
    · simp only [ensure_of hstable, ensure_of hfiat, ok_bind]
      split
      · exact nofun
      · cases feedPrice s c <;> exact nofun
    · simp [ensure_of hstable, ensure_of_not hfiat]

/-- A stable currency with a listed peg has the price of its peg for its fixed price. -/
theorem getStablecoinFixedPrice_of_listed {c fiat : CurrencyId} (hc : c ∈ cfg.stableCurrencyIds)
    (hpeg : cfg.pegCurrencyIds c = some fiat) (hfiat : fiat ∈ cfg.fiatCurrencyIds) :
    getStablecoinFixedPrice cfg s c =
      if c = cfg.setterCurrencyId then getSetterFixedPrice cfg s
      else if c = cfg.settUSDCurrencyId then .ok (getSettusdFixedPrice cfg)
      else okOr (feedPrice s fiat) := by
  unfold getStablecoinFixedPrice getPegPrice
  simp only [ensure_of hc, hpeg, okOr_some, ensure_of hfiat, ok_bind]
  rw [ensure_of trivial, ok_bind]

/-- One without has none. -/
theorem getStablecoinFixedPrice_of_not_listed {c : CurrencyId}
    (hlisted : ∀ fiat, cfg.pegCurrencyIds c = some fiat → fiat ∉ cfg.fiatCurrencyIds) :
    getStablecoinFixedPrice cfg s c = .error .unavailable := by
  unfold getStablecoinFixedPrice getPegPrice
  by_cases hc : c ∈ cfg.stableCurrencyIds
  · cases hpeg : cfg.pegCurrencyIds c with
    | none => simp [ensure_of hc]
    | some fiat => simp [ensure_of hc, ensure_of_not (hlisted fiat hpeg)]
  · simp [ensure_of_not hc]

/-- The market price of a stable currency is the adjusted price that is fed. -/
theorem getStablecoinMarketPrice_eq {c : CurrencyId} (hc : c ∈ cfg.stableCurrencyIds) :
    getStablecoinMarketPrice cfg s c = adjusted s c (okOr (feedPrice s c)) := by
  unfold getStablecoinMarketPrice getMarketPrice
  rw [ensure_of hc, ok_bind, if_neg (cfg.stable_notMem_fiat c hc)]
  cases c with
  | DexShare symbol0 symbol1 => exact absurd rfl (cfg.stable_ne_dexShare _ hc symbol0 symbol1)
  | _ => rfl

/-- A currency that is no liquidity share has the adjusted price of a whole unit. -/
theorem getPrice_eq {c : CurrencyId} (hc : ∀ s t, c ≠ .DexShare s t) :
    getPrice cfg s c = adjusted s c (wholePrice cfg s c) := by
  unfold getPrice
  split
  · rfl
  · cases c with
    | DexShare symbol0 symbol1 => exact absurd rfl (hc symbol0 symbol1)
    | _ => rfl

/-- A price is adjusted when the multiplier and the quotient fit. -/
theorem adjusted_ok {c : CurrencyId} {p d : ℕ} (hd : s.decimals c = some d)
    (hfits : 10 ^ d ≤ Balance.maxValue) :
    adjusted s c (.ok p) = okOr (FixedU128.checkedFromRational p (10 ^ d)) := by
  simp only [adjusted, hd, ok_bind, okOr_some, ensure_of hfits]

theorem adjusted_of_not_fits {c : CurrencyId} {p d : ℕ} (hd : s.decimals c = some d)
    (hfits : ¬ 10 ^ d ≤ Balance.maxValue) : adjusted s c (.ok p) = .error .unavailable := by
  simp only [adjusted, hd, ok_bind, okOr_some, ensure_of_not hfits, error_bind]

theorem checkedFromRational_of_adjusted {c : CurrencyId} {p d x : ℕ} (hd : s.decimals c = some d)
    (h : adjusted s c (.ok p) = .ok x) :
    FixedU128.checkedFromRational p (10 ^ d) = some x := by
  by_cases hfits : 10 ^ d ≤ Balance.maxValue
  · rwa [adjusted_ok hd hfits, okOr_ok] at h
  · rw [adjusted_of_not_fits hd hfits] at h
    cases h

end Setheum.Prices
