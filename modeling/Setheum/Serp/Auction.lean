import Setheum.Serp.Model

/-!
# The auction manager

A bidder of a diamond or a setter auction pays the auction's fixed amount, the first one to the
treasury and every later one to the bidder it outbids; what falls with the bids is the amount for
sale. A bidder of a serplus auction pays its price: the last price to the bidder it outbids, the
rest is burned. The winner is dealt the amount for sale, freshly issued.

`newSetterAuction` is transcribed with its statements in the order of the source: the total is
raised and the register entry made before the last check.
-/

set_option autoImplicit false

namespace Setheum.Serp

open StorageMap

/-! ## Bid prices and times -/

/-- The amount for sale at a last and a new bid price. -/
def amountForSale (amount fix lastBidPrice newBidPrice : ℕ) : ℕ :=
  if lastBidPrice < newBidPrice ∧ fix < newBidPrice then
    ((FixedU128.checkedFromRational (max lastBidPrice fix) newBidPrice).bind fun n =>
      FixedU128.checkedMulInt n amount).getD amount
  else amount

def DiamondAuctionItem.amountForSale (item : DiamondAuctionItem)
    (lastBidPrice newBidPrice : ℕ) : ℕ :=
  Serp.amountForSale item.amount item.fix lastBidPrice newBidPrice

def SetterAuctionItem.amountForSale (item : SetterAuctionItem)
    (lastBidPrice newBidPrice : ℕ) : ℕ :=
  Serp.amountForSale item.amount item.fix lastBidPrice newBidPrice

/-- The price rises by at least the minimum increment of the larger of last and target price. -/
def checkMinimumIncrement (newPrice lastPrice targetPrice minimumIncrement : ℕ) : Bool :=
  match FixedU128.checkedMulInt minimumIncrement (max targetPrice lastPrice),
      Balance.checkedSub newPrice lastPrice with
  | some target, some result => target ≤ result
  | _, _ => false

variable {A : Type} [DecidableEq A] (cfg : Config A)

omit [DecidableEq A] in
/-- The increment is doubled once the soft cap is reached. -/
def minimumIncrementSize (size now startBlock : ℕ) : ℕ :=
  if startBlock + cfg.auctionDurationSoftCap ≤ now then Balance.saturatingMul size 2 else size

def getDiamondAuctionMinimumIncrementSize (now startBlock : ℕ) : ℕ :=
  minimumIncrementSize cfg cfg.diamondAuctionMinimumIncrementSize now startBlock

def getSetterAuctionMinimumIncrementSize (now startBlock : ℕ) : ℕ :=
  minimumIncrementSize cfg cfg.setterAuctionMinimumIncrementSize now startBlock

def getSerplusAuctionMinimumIncrementSize (now startBlock : ℕ) : ℕ :=
  minimumIncrementSize cfg cfg.serplusAuctionMinimumIncrementSize now startBlock

/-- The time added by a bid, halved once the soft cap is reached. -/
def getAuctionTimeToClose (now startBlock : ℕ) : ℕ :=
  if startBlock + cfg.auctionDurationSoftCap ≤ now then cfg.auctionTimeToClose / 2
  else cfg.auctionTimeToClose

example (h : cfg.auctionTimeToClose = 100) (h' : cfg.auctionDurationSoftCap = 2000) :
    getAuctionTimeToClose cfg 2000 1 = 100 ∧ getAuctionTimeToClose cfg 2001 1 = 50 := by
  simp [getAuctionTimeToClose, h, h']

/-! ## Bids -/

/-- A bid: who makes it and at what price. -/
abbrev Bid (A : Type) := A × ℕ

def lastBidPrice (lastBid : Option (Bid A)) : ℕ := lastBid.elim 0 Prod.snd

/-- Add a reference to the new bidder and drop that of the last one, if any. -/
def swapBidders (newBidder : A) (lastBidder : Option A) : SerpM A Unit :=
  modify fun s =>
    -- a bidder without providers is only logged
    let system := (s.system.incConsumers newBidder).getD s.system
    { s with system := lastBidder.elim system system.decConsumers }

/-- A new bidder pays the fixed amount to the bidder it outbids, or to the treasury. -/
def payFix (currencyId : CurrencyId) (newBidder : A) (lastBidder : Option A) (fix : ℕ)
    (toTreasury : SerpM A Unit) : SerpM A Unit :=
  match lastBidder with
  | some lastBidder => transfer cfg currencyId newBidder lastBidder fix
  | none => toTreasury

def diamondAuctionBidHandler (now id : ℕ) (newBid : Bid A) (lastBid : Option (Bid A)) :
    SerpM A ℕ := Dispatch.transactional do
  let s ← get
  let item ← Dispatch.okOr (s.diamondAuctions.lookup id) (.auction .AuctionNonExistent)
  let (newBidder, newBidPrice) := newBid
  Dispatch.ensure
    (checkMinimumIncrement newBidPrice (lastBidPrice lastBid) item.fix
        (getDiamondAuctionMinimumIncrementSize cfg now item.startTime) = true ∧
      item.fix ≤ newBidPrice)
    (.auction .InvalidBidPrice)
  let lastBidder := lastBid.map Prod.fst
  payFix cfg cfg.setterCurrencyId newBidder lastBidder item.fix
    (depositSetter cfg newBidder item.fix)
  swapBidders newBidder lastBidder
  let amount := item.amountForSale (lastBidPrice lastBid) newBidPrice
  modify fun s =>
    { s with diamondAuctions := s.diamondAuctions.insert id { item with amount := amount } }
  pure (now + getAuctionTimeToClose cfg now item.startTime)

def setterAuctionBidHandler (now id : ℕ) (newBid : Bid A) (lastBid : Option (Bid A)) :
    SerpM A ℕ := Dispatch.transactional do
  let s ← get
  let item ← Dispatch.okOr (s.setterAuctions.lookup id) (.auction .AuctionNonExistent)
  let (newBidder, newBidPrice) := newBid
  Dispatch.ensure
    (checkMinimumIncrement newBidPrice (lastBidPrice lastBid) item.fix
        (getSetterAuctionMinimumIncrementSize cfg now item.startTime) = true ∧
      item.fix ≤ newBidPrice)
    (.auction .InvalidBidPrice)
  Dispatch.ensure (item.currency ∈ cfg.stableCurrencyIds) (.auction .InvalidCurrencyType)
  let lastBidder := lastBid.map Prod.fst
  payFix cfg item.currency newBidder lastBidder item.fix
    (depositSerplus cfg item.currency newBidder item.fix)
  swapBidders newBidder lastBidder
  let amount := item.amountForSale (lastBidPrice lastBid) newBidPrice
  modify fun s =>
    { s with setterAuctions := s.setterAuctions.insert id { item with amount := amount } }
  pure (now + getAuctionTimeToClose cfg now item.startTime)

/-- Refund the bidder that is outbid; what is left to burn. -/
def refundLastBid (newBidder : A) (newBidPrice : ℕ) : Option (Bid A) → SerpM A ℕ
  | some (lastBidder, lastBidPrice) => do
      transfer cfg cfg.nativeCurrencyId newBidder lastBidder lastBidPrice
      pure (newBidPrice - lastBidPrice)
  | none => pure newBidPrice

def serplusAuctionBidHandler (now id : ℕ) (newBid : Bid A) (lastBid : Option (Bid A)) :
    SerpM A ℕ := Dispatch.transactional do
  let (newBidder, newBidPrice) := newBid
  Dispatch.ensure (newBidPrice ≠ 0) (.auction .InvalidBidPrice)
  let s ← get
  let item ← Dispatch.okOr (s.serplusAuctions.lookup id) (.auction .AuctionNonExistent)
  Dispatch.ensure
    (checkMinimumIncrement newBidPrice (lastBidPrice lastBid) 0
      (getSerplusAuctionMinimumIncrementSize cfg now item.startTime) = true)
    (.auction .InvalidBidPrice)
  let burnAmount ← refundLastBid cfg newBidder newBidPrice lastBid
  withdraw cfg cfg.nativeCurrencyId newBidder burnAmount
  swapBidders newBidder (lastBid.map Prod.fst)
  pure (now + getAuctionTimeToClose cfg now item.startTime)

/-- The handler that answers for an auction id. -/
def bidHandler (s : State A) (now id : ℕ) (newBid : Bid A) (lastBid : Option (Bid A)) :
    SerpM A ℕ :=
  if id ∈ s.diamondAuctions then diamondAuctionBidHandler cfg now id newBid lastBid
  else if id ∈ s.setterAuctions then setterAuctionBidHandler cfg now id newBid lastBid
  else if id ∈ s.serplusAuctions then serplusAuctionBidHandler cfg now id newBid lastBid
  else throw (.auction .AuctionNonExistent)

structure OnNewBidResult where
  acceptBid : Bool
  auctionEndChange : Option (Option ℕ)

/-- The manager's answer to the auction register; a bid that fails is not accepted. -/
def onNewBid (now id : ℕ) (newBid : Bid A) (lastBid : Option (Bid A)) :
    SerpM A OnNewBidResult := do
  let s ← get
  match ← Dispatch.attempt (bidHandler cfg s now id newBid lastBid) with
  | .ok newAuctionEndTime => pure ⟨true, some (some newAuctionEndTime)⟩
  | .error _ => pure ⟨false, none⟩

/-- A bid put to the auction register: it passes on the last bid it accepted. -/
def bid (who : A) (id price : ℕ) : SerpM A Unit := Dispatch.transactional do
  let s ← get
  let auction ← Dispatch.okOr (s.auctions.info.lookup id) (.register .AuctionNotExist)
  Dispatch.ensure (cfg.bidAdmitted auction s.blockNumber who price = true)
    (.register .InvalidBid)
  let result ← onNewBid cfg s.blockNumber id (who, price) auction.bid
  Dispatch.ensure (result.acceptBid = true) (.register .BidNotAccepted)
  modify fun s =>
    { s with auctions := s.auctions.recordBid id (who, price) result.auctionEndChange }

/-! ## Ends and cancellations -/

/-- Issue what was sold to the winner, if any; a failure to do so is dropped. -/
def deal (winner : Option (Bid A)) (issue : A → SerpM A Unit) : SerpM A Unit :=
  match winner with
  | some (bidder, _) => Dispatch.ignore (issue bidder)
  | none => pure ()

def diamondAuctionEndHandler (item : DiamondAuctionItem) (winner : Option (Bid A)) :
    SerpM A Unit := do
  deal winner fun bidder => deposit cfg cfg.nativeCurrencyId bidder item.amount
  modify fun s => { s with totalSetterInAuction := s.totalSetterInAuction - item.fix }

def setterAuctionEndHandler (item : SetterAuctionItem) (winner : Option (Bid A)) :
    SerpM A Unit := do
  deal winner fun bidder => issueSetter cfg bidder item.amount
  modify fun s =>
    { s with
      totalSettCurrencyInAuction :=
        store 0 s.totalSettCurrencyInAuction item.currency
          (StorageMap.get 0 s.totalSettCurrencyInAuction item.currency - item.fix) }

def serplusAuctionEndHandler (item : SerplusAuctionItem) (winner : Option (Bid A)) :
    SerpM A Unit := do
  deal winner fun bidder => issuePropper cfg item.currency bidder item.amount
  modify fun s =>
    { s with
      totalSerplusInAuction :=
        store 0 s.totalSerplusInAuction item.currency
          (StorageMap.get 0 s.totalSerplusInAuction item.currency - item.amount) }

/-- Take the auction from the map it is in and run its end handler. -/
def takeEnded (s : State A) (id : ℕ) (winner : Option (Bid A)) : SerpM A Unit :=
  match s.diamondAuctions.lookup id, s.setterAuctions.lookup id, s.serplusAuctions.lookup id with
  | some item, _, _ => do
      modify fun s => { s with diamondAuctions := s.diamondAuctions.erase id }
      diamondAuctionEndHandler cfg item winner
  | none, some item, _ => do
      modify fun s => { s with setterAuctions := s.setterAuctions.erase id }
      setterAuctionEndHandler cfg item winner
  | none, none, some item => do
      modify fun s => { s with serplusAuctions := s.serplusAuctions.erase id }
      serplusAuctionEndHandler cfg item winner
  | none, none, none => pure ()

def onAuctionEnded (id : ℕ) (winner : Option (Bid A)) : SerpM A Unit := do
  let s ← get
  takeEnded cfg s id winner
  modify fun s => { s with system := (winner.map Prod.fst).elim s.system s.system.decConsumers }

/-- The auction register ends an auction and deals it to the last bidder. -/
def endAuction (id : ℕ) : SerpM A Unit := do
  let s ← get
  let auction ← Dispatch.okOr (s.auctions.info.lookup id) (.register .AuctionNotExist)
  modify fun s => { s with auctions := s.auctions.remove id }
  onAuctionEnded cfg id auction.bid

/-- The part the three cancellations share: refund the last bidder, if any, and drop its
reference. -/
def refundBidder (id : ℕ) (refund : Bid A → SerpM A Unit) : SerpM A Unit := do
  let s ← get
  match s.auctions.lastBid id with
  | some (bidder, bidPrice) =>
      refund (bidder, bidPrice)
      modify fun s => { s with system := s.system.decConsumers bidder }
  | none => pure ()

def cancelDiamondAuction (id : ℕ) (item : DiamondAuctionItem) : SerpM A Unit := do
  refundBidder id fun (bidder, _) => issueSetter cfg bidder item.fix
  modify fun s => { s with totalSetterInAuction := s.totalSetterInAuction - item.fix }

def cancelSetterAuction (id : ℕ) (item : SetterAuctionItem) : SerpM A Unit := do
  refundBidder id fun (bidder, _) => issuePropper cfg item.currency bidder item.fix
  modify fun s =>
    { s with
      totalSettCurrencyInAuction :=
        store 0 s.totalSettCurrencyInAuction item.currency
          (StorageMap.get 0 s.totalSettCurrencyInAuction item.currency - item.fix) }

def cancelSerplusAuction (id : ℕ) (item : SerplusAuctionItem) : SerpM A Unit := do
  refundBidder id fun (bidder, bidPrice) => deposit cfg cfg.nativeCurrencyId bidder bidPrice
  modify fun s =>
    { s with
      totalSerplusInAuction :=
        store 0 s.totalSerplusInAuction item.currency
          (StorageMap.get 0 s.totalSerplusInAuction item.currency - item.amount) }

/-- Take the auction from the map it is in and cancel it. -/
def takeCancelled (s : State A) (id : ℕ) : SerpM A Unit :=
  match s.setterAuctions.lookup id, s.diamondAuctions.lookup id, s.serplusAuctions.lookup id with
  | some item, _, _ => do
      modify fun s => { s with setterAuctions := s.setterAuctions.erase id }
      cancelSetterAuction cfg id item
  | none, some item, _ => do
      modify fun s => { s with diamondAuctions := s.diamondAuctions.erase id }
      cancelDiamondAuction cfg id item
  | none, none, some item => do
      modify fun s => { s with serplusAuctions := s.serplusAuctions.erase id }
      cancelSerplusAuction cfg id item
  | none, none, none => throw (.auction .AuctionNonExistent)

def cancelAuction (id : ℕ) : SerpM A Unit := do
  let s ← get
  takeCancelled cfg s id
  modify fun s => { s with auctions := s.auctions.remove id }

/-! ## New auctions -/

/-- Open an auction in the register. -/
def newRegisterAuction (start : ℕ) (endBlock : Option ℕ) : SerpM A ℕ := do
  let s ← get
  let (id, auctions) ← Dispatch.okOr (s.auctions.newAuction cfg.maxAuctionId start endBlock)
    (.register .NoAvailableAuctionId)
  modify fun s => { s with auctions := auctions }
  pure id

def newDiamondAuction (initialAmount fixSetter : ℕ) : SerpM A Unit :=
  if h : 0 < initialAmount ∧ 0 < fixSetter then do
    let s ← get
    let total ← Dispatch.okOr (Balance.checkedAdd s.totalSetterInAuction fixSetter)
      (.auction .InvalidAmount)
    modify fun s => { s with totalSetterInAuction := total }
    let startTime := s.blockNumber
    let auctionId ← newRegisterAuction cfg startTime (some (startTime + cfg.auctionTimeToClose))
    let item : DiamondAuctionItem :=
      { initialAmount := initialAmount, amount := initialAmount, fix := fixSetter,
        startTime := startTime, initialAmount_pos := h.1, fix_pos := h.2 }
    modify fun s => { s with diamondAuctions := s.diamondAuctions.insert auctionId item }
  else throw (.auction .InvalidAmount)

def newSetterAuction (initialAmount fixSettcurrency : ℕ) (settcurrencyId : CurrencyId) :
    SerpM A Unit :=
  if h : 0 < initialAmount ∧ 0 < fixSettcurrency then do
    Dispatch.ensure (settcurrencyId ∈ cfg.stableCurrencyIds) (.auction .InvalidCurrencyType)
    let s ← get
    let total ← Dispatch.okOr
      (Balance.checkedAdd (StorageMap.get 0 s.totalSettCurrencyInAuction settcurrencyId)
        fixSettcurrency)
      (.auction .InvalidAmount)
    modify fun s =>
      { s with
      totalSettCurrencyInAuction := store 0 s.totalSettCurrencyInAuction settcurrencyId total }
    let startTime := s.blockNumber
    let auctionId ← newRegisterAuction cfg startTime (some (startTime + cfg.auctionTimeToClose))
    Dispatch.ensure (settcurrencyId ≠ cfg.setterCurrencyId) (.auction .CurrencyNotAccepted)
    let item : SetterAuctionItem :=
      { initialAmount := initialAmount, amount := initialAmount, currency := settcurrencyId,
        fix := fixSettcurrency, startTime := startTime, initialAmount_pos := h.1,
        fix_pos := h.2 }
    modify fun s => { s with setterAuctions := s.setterAuctions.insert auctionId item }
  else throw (.auction .InvalidAmount)

def newSerplusAuction (amount : ℕ) (currencyId : CurrencyId) : SerpM A Unit := do
  Dispatch.ensure (amount ≠ 0) (.auction .InvalidAmount)
  Dispatch.ensure (currencyId ∈ cfg.stableCurrencyIds) (.auction .InvalidCurrencyType)
  let s ← get
  let total ← Dispatch.okOr
    (Balance.checkedAdd (StorageMap.get 0 s.totalSerplusInAuction currencyId) amount)
    (.auction .InvalidAmount)
  modify fun s =>
    { s with totalSerplusInAuction := store 0 s.totalSerplusInAuction currencyId total }
  let startTime := s.blockNumber
  -- no end time is set for a serplus auction
  let auctionId ← newRegisterAuction cfg startTime none
  let item : SerplusAuctionItem :=
    { amount := amount, currency := currencyId, startTime := startTime }
  modify fun s => { s with serplusAuctions := s.serplusAuctions.insert auctionId item }

end Setheum.Serp
