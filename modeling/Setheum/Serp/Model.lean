import Setheum.Lib.Auctions
import Setheum.Lib.Dispatch
import Setheum.Lib.Ledger
import Setheum.Lib.References
import Setheum.Lib.Run
import Setheum.Lib.StorageMap
import Setheum.Primitives.Currency

/-!
# The SERP: storages, configuration and the treasury's currency functions

The treasury decides when the supply of a stable currency changes and holds what auctions bring
in; the auction manager runs the auctions. They call each other through their configurations, so
they share one state here. Prices are those of the price source; which bids the auction register
passes on to the manager is a parameter.

The two per-currency auction totals are declared as single values with a currency as an extra
argument; here they are maps keyed by currency.
-/

set_option autoImplicit false

namespace Setheum.Serp

open StorageMap

/-- A diamond auction: native currency for sale to buy back a fixed amount of Setter. -/
structure DiamondAuctionItem where
  initialAmount : ℕ
  amount : ℕ
  fix : ℕ
  startTime : ℕ
  initialAmount_pos : 0 < initialAmount
  fix_pos : 0 < fix
  deriving DecidableEq

/-- A setter auction: Setter for sale to buy back a fixed amount of a SettCurrency. -/
structure SetterAuctionItem where
  initialAmount : ℕ
  amount : ℕ
  currency : CurrencyId
  fix : ℕ
  startTime : ℕ
  initialAmount_pos : 0 < initialAmount
  fix_pos : 0 < fix
  deriving DecidableEq

/-- A serplus auction: a fixed amount of a SettCurrency for sale to get back native currency. -/
structure SerplusAuctionItem where
  amount : ℕ
  currency : CurrencyId
  startTime : ℕ
  deriving DecidableEq

/-- The errors of the auction manager. -/
inductive AuctionError
  | AuctionNonExistent
  | CurrencyNotAccepted
  | InvalidFeedPrice
  | InvalidBidPrice
  | InvalidAmount
  | InvalidCurrencyType
  deriving DecidableEq, Repr

/-- The errors of the treasury. -/
inductive TreasuryError
  | PriceIsStableCannotSerp
  | InvalidCurrencyType
  | InvalidAmount
  deriving DecidableEq, Repr

/-- The errors of the auction register. -/
inductive RegisterError
  | NoAvailableAuctionId
  | AuctionNotExist
  | InvalidBid
  | BidNotAccepted
  deriving DecidableEq, Repr

/-- The errors of the price source and of arithmetic on prices. -/
inductive PriceError
  | unavailable
  | AmountConvertFailed
  | BalanceConvertFailed
  | arithmetic
  deriving DecidableEq, Repr

inductive DispatchError
  | auction (e : AuctionError)
  | treasury (e : TreasuryError)
  | register (e : RegisterError)
  | price (e : PriceError)
  | currency (e : Ledger.Error)
  deriving DecidableEq, Repr

/-- The events by which the treasury reports what it did to a currency. -/
inductive Event
  | CurrencySerpUpDelivered (amount : ℕ) (currencyId : CurrencyId)
  | CurrencySerpedUp (amount : ℕ) (currencyId : CurrencyId)
  | CurrencySerpDownTriggered (amount : ℕ) (currencyId : CurrencyId)
  deriving DecidableEq, Repr

/-- What the price source answers, as inner values of fixed-point prices. -/
structure Prices where
  stablecoinMarketPrice : CurrencyId → Option ℕ
  stablecoinFixedPrice : CurrencyId → Option ℕ
  setterFixedPrice : Option ℕ
  price : CurrencyId → Option ℕ

/-- The storages of the treasury and the auction manager and those they use. -/
structure State (A : Type) where
  ledger : Ledger CurrencyId A
  system : References A
  blockNumber : ℕ
  auctions : Auctions A
  diamondAuctions : Map ℕ DiamondAuctionItem
  setterAuctions : Map ℕ SetterAuctionItem
  serplusAuctions : Map ℕ SerplusAuctionItem
  totalSetterInAuction : ℕ
  totalSettCurrencyInAuction : Map CurrencyId ℕ
  totalSerplusInAuction : Map CurrencyId ℕ
  prices : Prices
  events : List Event

structure Config (A : Type) where
  rules : Ledger.Rules CurrencyId A
  bidAdmitted : AuctionInfo A → ℕ → A → ℕ → Bool
  maxAuctionId : ℕ
  diamondAuctionMinimumIncrementSize : ℕ
  setterAuctionMinimumIncrementSize : ℕ
  serplusAuctionMinimumIncrementSize : ℕ
  auctionTimeToClose : ℕ
  auctionDurationSoftCap : ℕ
  nativeCurrencyId : CurrencyId
  setterCurrencyId : CurrencyId
  stableCurrencyIds : List CurrencyId
  serplusSerpupRatio : ℕ
  settPaySerpupRatio : ℕ
  setheumTreasurySerpupRatio : ℕ
  charityFundSerpupRatio : ℕ
  settPayTreasuryAcc : A
  setheumTreasuryAcc : A
  charityFundAcc : A
  accountId : A

/-- An account that can sign: the treasury's module account has no key. -/
abbrev Signer {A : Type} (cfg : Config A) := {a : A // a ≠ cfg.accountId}

abbrev SerpM (A : Type) := Dispatch DispatchError (State A)

variable {A : Type} [DecidableEq A] (cfg : Config A)

/-! ## Currencies -/

/-- A ledger operation as a call. -/
def onLedger (f : Ledger CurrencyId A → Except Ledger.Error (Ledger CurrencyId A)) :
    SerpM A Unit :=
  Dispatch.onComponent State.ledger (fun l s => { s with ledger := l }) .currency f

def deposit (currencyId : CurrencyId) (who : A) (amount : ℕ) : SerpM A Unit :=
  onLedger (Ledger.deposit cfg.rules currencyId who amount)

def withdraw (currencyId : CurrencyId) (who : A) (amount : ℕ) : SerpM A Unit :=
  onLedger (Ledger.withdraw cfg.rules currencyId who amount)

def transfer (currencyId : CurrencyId) (source dest : A) (amount : ℕ) : SerpM A Unit :=
  onLedger (Ledger.transfer cfg.rules currencyId source dest amount)

def issuePropper (currencyId : CurrencyId) (who : A) (propper : ℕ) : SerpM A Unit :=
  deposit cfg currencyId who propper

def issueSetter (who : A) (setter : ℕ) : SerpM A Unit :=
  deposit cfg cfg.setterCurrencyId who setter

/-- Deposit a SettCurrency to the treasury. -/
def depositSerplus (currencyId : CurrencyId) (source : A) (serplus : ℕ) : SerpM A Unit :=
  transfer cfg currencyId source cfg.accountId serplus

/-- Deposit the reserve asset, Setter, to the treasury. -/
def depositSetter (source : A) (amount : ℕ) : SerpM A Unit :=
  transfer cfg cfg.setterCurrencyId source cfg.accountId amount

end Setheum.Serp
