import Setheum.Serp.Auction

/-!
# The treasury: elastic supply

`serpTes` compares the market price of a stable currency with its peg and either issues new units
to four accounts (`onSerpup`) or opens an auction that buys units back (`onSerpdown`). The
direction is the sign of one hundred minus the price in percent of the peg, as the source has it.

The source mixes integers and fixed-point prices, uses options as values and applies `?` to them.
Here a price enters signed arithmetic by its inner value, `none` is an error wherever a value is
needed, and a balance is divided by a price by its value. A statement whose result the source
drops is run with its outcome dropped.
-/

set_option autoImplicit false

namespace Setheum.Serp

open StorageMap

/-- `amount_try_from_price_abs`: a price as a signed amount. -/
def amountTryFromPriceAbs (p : ℕ) : Except DispatchError ℤ :=
  if (p : ℤ) ≤ Amount.maxValue then .ok p else .error (.price .AmountConvertFailed)

/-- `balance_try_from_amount`: a signed amount as a balance. -/
def balanceTryFromAmount (a : ℤ) : Except DispatchError ℕ :=
  if 0 ≤ a then .ok a.toNat else .error (.price .BalanceConvertFailed)

/-- A balance divided by a price. -/
def checkedDivByPrice (amount price : ℕ) : Option ℕ :=
  if price = 0 then none
  else if amount * FixedU128.accuracy / price ≤ Balance.maxValue then
    some (amount * FixedU128.accuracy / price)
  else none

variable {A : Type} [DecidableEq A] (cfg : Config A)

omit [DecidableEq A] in
def depositEvent (e : Event) : SerpM A Unit := modify fun s => { s with events := e :: s.events }

/-- Issue a ratio of the amount to an account; a failure to do so is dropped. -/
def deliverSerpup (ratio : ℕ) (account : A) (amount : ℕ) (currencyId : CurrencyId) :
    SerpM A Unit := do
  Dispatch.ignore (issuePropper cfg currencyId account (Permill.mul ratio amount))
  depositEvent (.CurrencySerpUpDelivered amount currencyId)

def getSerplusSerpup (amount : ℕ) (currencyId : CurrencyId) : SerpM A Unit :=
  deliverSerpup cfg cfg.serplusSerpupRatio cfg.accountId amount currencyId

def getSettpaySerpup (amount : ℕ) (currencyId : CurrencyId) : SerpM A Unit :=
  deliverSerpup cfg cfg.settPaySerpupRatio cfg.settPayTreasuryAcc amount currencyId

def getTreasurySerpup (amount : ℕ) (currencyId : CurrencyId) : SerpM A Unit :=
  deliverSerpup cfg cfg.setheumTreasurySerpupRatio cfg.setheumTreasuryAcc amount currencyId

def getCharityFundSerpup (amount : ℕ) (currencyId : CurrencyId) : SerpM A Unit :=
  deliverSerpup cfg cfg.charityFundSerpupRatio cfg.charityFundAcc amount currencyId

/-- Issue new units to their destinations according to the serpup ratios. -/
def onSerpup (currencyId : CurrencyId) (amount : ℕ) : SerpM A Unit := do
  Dispatch.ensure (currencyId ∈ cfg.stableCurrencyIds) (.treasury .InvalidCurrencyType)
  Dispatch.ensure (amount ≠ 0) (.treasury .InvalidAmount)
  getSerplusSerpup cfg amount currencyId
  getSettpaySerpup cfg amount currencyId
  getTreasurySerpup cfg amount currencyId
  getCharityFundSerpup cfg amount currencyId
  depositEvent (.CurrencySerpedUp amount currencyId)

/-- Open the auction that buys the amount back. -/
def openSerpdownAuction (currencyId : CurrencyId) (amount : ℕ) : SerpM A Unit := do
  let s ← get
  let setterFixedPrice ← Dispatch.okOr s.prices.setterFixedPrice (.price .unavailable)
  if currencyId = cfg.setterCurrencyId then do
    let dinarPrice ← Dispatch.okOr (s.prices.price cfg.nativeCurrencyId) (.price .unavailable)
    let relativePrice ← Dispatch.okOr (FixedU128.checkedDiv dinarPrice setterFixedPrice)
      (.price .arithmetic)
    let initialAmount ← Dispatch.okOr (checkedDivByPrice amount relativePrice)
      (.price .arithmetic)
    Dispatch.ensure (initialAmount ≠ 0 ∧ amount ≠ 0) (.treasury .InvalidAmount)
    Dispatch.ignore (newDiamondAuction cfg initialAmount amount)
  else do
    let settcurrencyFixedPrice ← Dispatch.okOr (s.prices.stablecoinFixedPrice currencyId)
      (.price .unavailable)
    let relativePrice ← Dispatch.okOr
      (FixedU128.checkedDiv setterFixedPrice settcurrencyFixedPrice) (.price .arithmetic)
    let initialSetterAmount ← Dispatch.okOr (checkedDivByPrice amount relativePrice)
      (.price .arithmetic)
    Dispatch.ensure (initialSetterAmount ≠ 0 ∧ amount ≠ 0) (.treasury .InvalidAmount)
    Dispatch.ignore (newSetterAuction cfg initialSetterAmount amount currencyId)

/-- Buy back and burn surplus with an auction. -/
def onSerpdown (currencyId : CurrencyId) (amount : ℕ) : SerpM A Unit := do
  Dispatch.ensure (currencyId ∈ cfg.stableCurrencyIds) (.treasury .InvalidCurrencyType)
  openSerpdownAuction cfg currencyId amount
  depositEvent (.CurrencySerpDownTriggered amount currencyId)

/-- The call that a differed amount leads to. -/
def serp (differedAmount : ℤ) (currencyId : CurrencyId) (serpSupply : ℕ) : SerpM A Unit :=
  if 0 < differedAmount then onSerpup cfg currencyId serpSupply
  else if differedAmount < 0 then onSerpdown cfg currencyId serpSupply
  else pure ()

/-- Determines whether to SerpUp or SerpDown, and does so. -/
def serpTes (currencyId : CurrencyId) : SerpM A Unit := do
  Dispatch.ensure (currencyId ∈ cfg.stableCurrencyIds) (.treasury .InvalidCurrencyType)
  let s ← get
  let marketPrice ← Dispatch.okOr (s.prices.stablecoinMarketPrice currencyId)
    (.price .unavailable)
  let fixedPrice ← Dispatch.okOr (s.prices.stablecoinFixedPrice currencyId) (.price .unavailable)
  let fixedPriceAmount ← Dispatch.ofExcept (amountTryFromPriceAbs fixedPrice)
  let marketPriceAmount ← Dispatch.ofExcept (amountTryFromPriceAbs marketPrice)
  let fixedPricePercentAmount ← Dispatch.okOr (Amount.checkedDiv fixedPriceAmount 100)
    (.price .arithmetic)
  let percentage ← Dispatch.okOr (Amount.checkedDiv marketPriceAmount fixedPricePercentAmount)
    (.price .arithmetic)
  let differedAmount ← Dispatch.okOr (Amount.checkedSub 100 percentage) (.price .arithmetic)
  let differedAmountBalance ← Dispatch.ofExcept (balanceTryFromAmount differedAmount)
  let totalSupply := s.ledger.issuance currencyId
  let supplyRatio := totalSupply / 100
  let serpSupply ← Dispatch.okOr (Balance.checkedMul supplyRatio totalSupply)
    (.price .arithmetic)
  Dispatch.ensure (differedAmount ≠ 0) (.treasury .PriceIsStableCannotSerp)
  Dispatch.ensure (differedAmountBalance ≠ 0) (.treasury .PriceIsStableCannotSerp)
  serp cfg differedAmount currencyId serpSupply

end Setheum.Serp
