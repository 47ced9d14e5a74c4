import Setheum.Lib.Dispatch
import Setheum.Lib.Ledger
import Setheum.Lib.References
import Setheum.Lib.Run
import Setheum.Lib.StorageMap
import Setheum.Primitives.Currency

/-!
# The decentralised exchange

Trading pairs with their liquidity pools, the provisioning phase of a new pair, and swaps along a
path of pairs. The exchange keeps all its assets on one module account.

The currency layer is a `Ledger`; what else it may refuse for is `Config.rules`. The mapping of
ERC-20 addresses and the incentives of liquidity shares are the parameters `Mapping` and
`DEXIncentives`; the latter carries what the exchange relies on: staking shares moves nothing on
the module account and mints no shares.
-/

set_option autoImplicit false

namespace Setheum.Dex

open StorageMap

inductive Error
  | NotEnabledTradingPair
  | MustBeEnabled
  | MustBeProvisioning
  | MustBeNotEnabled
  | NotAllowedList
  | InvalidContributionIncrement
  | InvalidLiquidityIncrement
  | InvalidCurrencyId
  | InvalidTradingPathLength
  | InsufficientTargetAmount
  | ExcessiveSupplyAmount
  | ExceedPriceImpactLimit
  | InsufficientLiquidity
  | ZeroSupplyAmount
  | ZeroTargetAmount
  | UnacceptableShareIncrement
  | UnacceptableLiquidityWithdrawn
  deriving DecidableEq, Repr

inductive DispatchError
  | badOrigin
  | module (e : Error)
  | currency (e : Ledger.Error)
  | mapping
  | incentives
  deriving DecidableEq, Repr

structure TradingPairProvisionParameters where
  minContribution : ℕ × ℕ
  targetProvision : ℕ × ℕ
  accumulatedProvision : ℕ × ℕ
  notBefore : ℕ
  deriving DecidableEq, Repr

inductive TradingPairStatus
  | NotEnabled
  | Provisioning (parameters : TradingPairProvisionParameters)
  | Enabled
  deriving DecidableEq, Repr

/-- The storages the exchange reads and writes; `external` stands for those of the mapping and of
the incentives. -/
structure State (A E : Type) where
  ledger : Ledger CurrencyId A
  system : References A
  blockNumber : ℕ
  liquidityPool : Map TradingPair (ℕ × ℕ)
  tradingPairStatuses : Map TradingPair TradingPairStatus
  provisioningPool : Map (TradingPair × A) (ℕ × ℕ)
  exchangeFee : ℕ × ℕ
  external : E

/-- `CurrencyIdMapping`, as far as the exchange uses it. -/
structure Mapping (E : Type) where
  setErc20Mapping : EvmAddress → E → Option E

/-- `DEXIncentives`: staking and unstaking liquidity shares for an account other than the
exchange's own. -/
structure DEXIncentives (A E : Type) (module : A) where
  doDepositDexShare :
    A → CurrencyId → ℕ → Ledger CurrencyId A × E → Option (Ledger CurrencyId A × E)
  doWithdrawDexShare :
    A → CurrencyId → ℕ → Ledger CurrencyId A × E → Option (Ledger CurrencyId A × E)
  deposit_free : ∀ {who c n s s'}, who ≠ module → doDepositDexShare who c n s = some s' →
    ∀ c', s'.1.free c' module = s.1.free c' module
  withdraw_free : ∀ {who c n s s'}, who ≠ module → doWithdrawDexShare who c n s = some s' →
    ∀ c', s'.1.free c' module = s.1.free c' module
  withdraw_issuance : ∀ {who c n s s'}, doWithdrawDexShare who c n s = some s' →
    s'.1.issuance c = s.1.issuance c

/-- The incentives that do nothing. -/
def DEXIncentives.unit (A E : Type) (module : A) : DEXIncentives A E module where
  doDepositDexShare _ _ _ s := some s
  doWithdrawDexShare _ _ _ s := some s
  deposit_free := by
    rintro who c n s s' - h c'
    cases h
    rfl
  withdraw_free := by
    rintro who c n s s' - h c'
    cases h
    rfl
  withdraw_issuance := by
    rintro who c n s s' h
    cases h
    rfl

/-- Who a call comes from. -/
inductive Origin (A : Type)
  | root
  | signed (who : A)

/-- The configuration of the exchange. Its module account has no key, so no call is signed by
it. -/
structure Config (A E : Type) where
  rules : Ledger.Rules CurrencyId A
  accountId : A
  tradingPathLimit : ℕ
  mapping : Mapping E
  incentives : DEXIncentives A E accountId
  updateOrigin : Origin A → Bool
  listingOrigin : Origin A → Bool

/-- An account that can sign. -/
abbrev Signer {A E : Type} (cfg : Config A E) := {a : A // a ≠ cfg.accountId}

abbrev DexM (A E : Type) := Dispatch DispatchError (State A E)

variable {A E : Type}

namespace State

def tradingPairStatus (s : State A E) (p : TradingPair) : TradingPairStatus :=
  get .NotEnabled s.tradingPairStatuses p

def pool (s : State A E) (p : TradingPair) : ℕ × ℕ := get (0, 0) s.liquidityPool p

variable [DecidableEq A]

def provision (s : State A E) (p : TradingPair) (who : A) : ℕ × ℕ :=
  get (0, 0) s.provisioningPool (p, who)

/-- The entries that `drain_prefix` of a pair yields. -/
def provisionsOf (s : State A E) (p : TradingPair) : List (A × (ℕ × ℕ)) :=
  (restrict (fun k => k.1 = p) s.provisioningPool).entries.map fun e => (e.1.2, e.2)

/-- The provisioning pool after `drain_prefix` of a pair. -/
def drained (s : State A E) (p : TradingPair) : Map (TradingPair × A) (ℕ × ℕ) :=
  restrict (fun k => ¬ k.1 = p) s.provisioningPool

end State

/-- Two amounts given for `currencyIdA` and its partner, in the order of the pair. -/
def inPairOrder (p : TradingPair) (currencyIdA : CurrencyId) (x y : ℕ) : ℕ × ℕ :=
  if currencyIdA = p.currency0 then (x, y) else (y, x)

def addPair (x y : ℕ × ℕ) : ℕ × ℕ :=
  (Balance.saturatingAdd x.1 y.1, Balance.saturatingAdd x.2 y.2)

/-- The parameters after a contribution. -/
def TradingPairProvisionParameters.contribute (p : TradingPairProvisionParameters)
    (contribution : ℕ × ℕ) : TradingPairProvisionParameters :=
  { p with accumulatedProvision := addPair p.accumulatedProvision contribution }

/-- The shares for an initial contribution, at the price the larger side sets. -/
def initialShare (price contribution : ℕ × ℕ) : ℕ :=
  if price.1 > price.2 then
    Balance.saturatingAdd
      (FixedU128.saturatingMulInt ((FixedU128.checkedFromRational price.1 price.2).getD 0)
        contribution.2)
      contribution.1
  else
    Balance.saturatingAdd
      (FixedU128.saturatingMulInt ((FixedU128.checkedFromRational price.2 price.1).getD 0)
        contribution.1)
      contribution.2

/-! ## Prices along a path -/

/-- `U256::MAX`. -/
def u256Max : ℕ := 2 ^ 256 - 1

def getLiquidity (s : State A E) (currencyIdA currencyIdB : CurrencyId) : ℕ × ℕ :=
  let p := TradingPair.new currencyIdA currencyIdB
  if currencyIdA = p.currency0 then ((s.pool p).1, (s.pool p).2)
  else ((s.pool p).2, (s.pool p).1)

/-- How much target amount a supply amount buys. -/
def getTargetAmount (fee : ℕ × ℕ) (supplyPool targetPool supplyAmount : ℕ) : ℕ :=
  if supplyAmount = 0 ∨ supplyPool = 0 ∨ targetPool = 0 then 0
  else
    let supplyAmountWithFee := Balance.saturatingMul supplyAmount (fee.2 - fee.1)
    let numerator := min (supplyAmountWithFee * targetPool) u256Max
    let denominator := min (min (supplyPool * fee.2) u256Max + supplyAmountWithFee) u256Max
    if denominator = 0 then 0
    else if numerator / denominator ≤ Balance.maxValue then numerator / denominator
    else 0

/-- How much supply amount a target amount costs; one is added for the remainder. -/
def getSupplyAmount (fee : ℕ × ℕ) (supplyPool targetPool targetAmount : ℕ) : ℕ :=
  if targetAmount = 0 ∨ supplyPool = 0 ∨ targetPool = 0 then 0
  else
    let numerator := min (min (supplyPool * targetAmount) u256Max * fee.2) u256Max
    let denominator := min ((targetPool - targetAmount) * (fee.2 - fee.1)) u256Max
    if denominator = 0 then 0
    else if numerator / denominator + 1 ≤ Balance.maxValue then numerator / denominator + 1
    else 0

/-- The checks on one hop that both directions of quoting make. -/
def exceedsImpact (priceImpactLimit : Option ℕ) (targetAmount targetPool : ℕ) : Bool :=
  match priceImpactLimit with
  | some limit => limit < (FixedU128.checkedFromRational targetAmount targetPool).getD 0
  | none => false

/-- The amounts along a path from its start, the supply first. -/
def targetAmountsFrom (s : State A E) (priceImpactLimit : Option ℕ) :
    List CurrencyId → ℕ → Except Error (List ℕ)
  | c :: c' :: path, amount =>
      if s.tradingPairStatus (TradingPair.new c c') ≠ .Enabled then .error .MustBeEnabled
      else
        let (supplyPool, targetPool) := getLiquidity s c c'
        if supplyPool = 0 ∨ targetPool = 0 then .error .InsufficientLiquidity
        else
          let targetAmount := getTargetAmount s.exchangeFee supplyPool targetPool amount
          if targetAmount = 0 then .error .ZeroTargetAmount
          else if exceedsImpact priceImpactLimit targetAmount targetPool then
            .error .ExceedPriceImpactLimit
          else
            match targetAmountsFrom s priceImpactLimit (c' :: path) targetAmount with
            | .ok amounts => .ok (amount :: amounts)
            | .error e => .error e
  | _, amount => .ok [amount]

def getTargetAmounts (pathLimit : ℕ) (s : State A E) (path : List CurrencyId)
    (supplyAmount : ℕ) (priceImpactLimit : Option ℕ) : Except Error (List ℕ) :=
  if path.length < 2 ∨ pathLimit < path.length then .error .InvalidTradingPathLength
  else targetAmountsFrom s priceImpactLimit path supplyAmount

/-- The amounts along a path computed from its end, the target last. -/
def supplyAmountsTo (s : State A E) (priceImpactLimit : Option ℕ) :
    List CurrencyId → ℕ → Except Error (List ℕ)
  | c :: c' :: path, amount =>
      match supplyAmountsTo s priceImpactLimit (c' :: path) amount with
      | .error e => .error e
      | .ok amounts =>
          let targetAmount := amounts.headD 0
          if s.tradingPairStatus (TradingPair.new c c') ≠ .Enabled then .error .MustBeEnabled
          else
            let (supplyPool, targetPool) := getLiquidity s c c'
            if supplyPool = 0 ∨ targetPool = 0 then .error .InsufficientLiquidity
            else
              let supplyAmount := getSupplyAmount s.exchangeFee supplyPool targetPool targetAmount
              if supplyAmount = 0 then .error .ZeroSupplyAmount
              else if exceedsImpact priceImpactLimit targetAmount targetPool then
                .error .ExceedPriceImpactLimit
              else .ok (supplyAmount :: amounts)
  | _, amount => .ok [amount]

def getSupplyAmounts (pathLimit : ℕ) (s : State A E) (path : List CurrencyId)
    (targetAmount : ℕ) (priceImpactLimit : Option ℕ) : Except Error (List ℕ) :=
  if path.length < 2 ∨ pathLimit < path.length then .error .InvalidTradingPathLength
  else supplyAmountsTo s priceImpactLimit path targetAmount

/-- One hop: the supply enters its side of the pool and the target leaves the other, with
saturating arithmetic. -/
def swap (supplyCurrencyId targetCurrencyId : CurrencyId) (supplyIncrement targetDecrement : ℕ)
    (s : State A E) : State A E :=
  match TradingPair.fromTokenCurrencyIds supplyCurrencyId targetCurrencyId with
  | none => s
  | some p =>
      let pool := s.pool p
      let pool' :=
        if supplyCurrencyId = p.currency0 then
          (Balance.saturatingAdd pool.1 supplyIncrement, pool.2 - targetDecrement)
        else (pool.1 - targetDecrement, Balance.saturatingAdd pool.2 supplyIncrement)
      { s with liquidityPool := s.liquidityPool.insert p pool' }

def swapByPath : List CurrencyId → List ℕ → State A E → State A E
  | c :: c' :: path, n :: n' :: amounts, s =>
      swapByPath (c' :: path) (n' :: amounts) (swap c c' n n' s)
  | _, _, s => s

/-! ## The calls -/

section Calls

variable [DecidableEq A] (cfg : Config A E)

def transfer (c : CurrencyId) (source target : A) (n : ℕ) : DexM A E Unit :=
  Dispatch.onComponent State.ledger (fun l s => { s with ledger := l }) .currency
    (Ledger.transfer cfg.rules c source target n)

def deposit (c : CurrencyId) (who : A) (n : ℕ) : DexM A E Unit :=
  Dispatch.onComponent State.ledger (fun l s => { s with ledger := l }) .currency
    (Ledger.deposit cfg.rules c who n)

def withdraw (c : CurrencyId) (who : A) (n : ℕ) : DexM A E Unit :=
  Dispatch.onComponent State.ledger (fun l s => { s with ledger := l }) .currency
    (Ledger.withdraw cfg.rules c who n)

/-- Run one of the incentives' operations on the ledger and its own storage. -/
def staking (f : Ledger CurrencyId A × E → Option (Ledger CurrencyId A × E)) : DexM A E Unit :=
  Dispatch.onComponent (fun s => (s.ledger, s.external))
    (fun w s => { s with ledger := w.1, external := w.2 }) (fun _ : Unit => .incentives)
    fun w => (f w).elim (.error ()) .ok

/-- The module-level reference of a contributor; a missing provider is only logged. -/
def incConsumers (who : A) (s : State A E) : State A E :=
  { s with system := (s.system.incConsumers who).getD s.system }

/-- Whether a provisioning pair can be enabled at this block. -/
def canBeEnabled (blockNumber : ℕ) (p : TradingPairProvisionParameters) : Bool :=
  p.notBefore ≤ blockNumber && p.accumulatedProvision.1 ≠ 0 && p.accumulatedProvision.2 ≠ 0
    && (p.targetProvision.1 ≤ p.accumulatedProvision.1
      || p.targetProvision.2 ≤ p.accumulatedProvision.2)

/-- Issue a contributor's shares, ignoring a failure, and drop its reference. -/
def issueShare (lpShareCurrencyId : CurrencyId) (accumulated : ℕ × ℕ) (s : State A E)
    (entry : A × (ℕ × ℕ)) : State A E :=
  let shareAmount := initialShare accumulated entry.2
  let ledger' :=
    match Ledger.deposit cfg.rules lpShareCurrencyId entry.1 shareAmount s.ledger with
    | .ok l => l
    | .error _ => s.ledger
  { s with ledger := ledger', system := s.system.decConsumers entry.1 }

/-- Enable a provisioning pair that has reached its target: issue the contributors' shares and
inject the accumulated provision into the pool. -/
def convertToEnabledIfPossible (tradingPair : TradingPair) (s : State A E) : State A E :=
  match s.tradingPairStatus tradingPair, tradingPair.getDexShareCurrencyId with
  | .Provisioning p, some lpShareCurrencyId =>
      if canBeEnabled s.blockNumber p then
        let s' := (s.provisionsOf tradingPair).foldl
          (issueShare cfg lpShareCurrencyId p.accumulatedProvision) s
        let pool := s.pool tradingPair
        -- the source adds the first side and subtracts the second
        { s' with
          provisioningPool := s.drained tradingPair
          liquidityPool := s.liquidityPool.insert tradingPair
            (Balance.saturatingAdd pool.1 p.accumulatedProvision.1,
              pool.2 - p.accumulatedProvision.2)
          tradingPairStatuses := s.tradingPairStatuses.insert tradingPair .Enabled }
      else s
  | _, _ => s

def doAddProvision (who : A) (currencyIdA currencyIdB : CurrencyId)
    (contributionA contributionB : ℕ) : DexM A E Unit := do
  let tradingPair := TradingPair.new currencyIdA currencyIdB
  let s ← get
  match s.tradingPairStatus tradingPair with
  | .Provisioning p =>
      let contribution := inPairOrder tradingPair currencyIdA contributionA contributionB
      Dispatch.ensure (p.minContribution.1 ≤ contribution.1 ∨
        p.minContribution.2 ≤ contribution.2) (.module .InvalidContributionIncrement)
      transfer cfg tradingPair.currency0 who cfg.accountId contribution.1
      transfer cfg tradingPair.currency1 who cfg.accountId contribution.2
      modify fun t => { t with
        provisioningPool := t.provisioningPool.insert (tradingPair, who)
          (addPair (s.provision tradingPair who) contribution) }
      Dispatch.when (s.provisioningPool.lookup (tradingPair, who) = none)
        (modify (incConsumers who))
      modify fun t => { t with
        tradingPairStatuses :=
          t.tradingPairStatuses.insert tradingPair (.Provisioning (p.contribute contribution)) }
  | _ => throw (.module .MustBeProvisioning)

/-- The increments of both pools and of the shares for at most the given amounts. -/
def liquidityIncrement (totalShares : ℕ) (pool maxAmount : ℕ × ℕ) : (ℕ × ℕ) × ℕ :=
  if totalShares = 0 then (maxAmount, initialShare maxAmount maxAmount)
  else
    let price01 := (FixedU128.checkedFromRational pool.2 pool.1).getD 0
    let inputPrice01 := (FixedU128.checkedFromRational maxAmount.2 maxAmount.1).getD 0
    if inputPrice01 ≤ price01 then
      -- the first amount may be too much
      let price10 := (FixedU128.checkedFromRational pool.1 pool.2).getD 0
      let amount0 := FixedU128.saturatingMulInt price10 maxAmount.2
      ((amount0, maxAmount.2),
        ((FixedU128.checkedFromRational amount0 pool.1).bind
          fun n => FixedU128.checkedMulInt n totalShares).getD 0)
    else
      let amount1 := FixedU128.saturatingMulInt price01 maxAmount.1
      ((maxAmount.1, amount1),
        ((FixedU128.checkedFromRational amount1 pool.2).bind
          fun n => FixedU128.checkedMulInt n totalShares).getD 0)

def doAddLiquidity (who : A) (currencyIdA currencyIdB : CurrencyId)
    (maxAmountA maxAmountB minShareIncrement : ℕ) (depositIncrementShare : Bool) :
    DexM A E Unit := do
  let tradingPair := TradingPair.new currencyIdA currencyIdB
  let lpShareCurrencyId ←
    Dispatch.okOr tradingPair.getDexShareCurrencyId (.module .InvalidCurrencyId)
  let s ← get
  Dispatch.ensure (s.tradingPairStatus tradingPair = .Enabled) (.module .MustBeEnabled)
  let maxAmount := inPairOrder tradingPair currencyIdA maxAmountA maxAmountB
  let increment :=
    liquidityIncrement (s.ledger.issuance lpShareCurrencyId) (s.pool tradingPair) maxAmount
  Dispatch.ensure (increment.2 ≠ 0 ∧ increment.1.1 ≠ 0 ∧ increment.1.2 ≠ 0)
    (.module .InvalidLiquidityIncrement)
  Dispatch.ensure (minShareIncrement ≤ increment.2) (.module .UnacceptableShareIncrement)
  transfer cfg tradingPair.currency0 who cfg.accountId increment.1.1
  transfer cfg tradingPair.currency1 who cfg.accountId increment.1.2
  deposit cfg lpShareCurrencyId who increment.2
  Dispatch.when depositIncrementShare <|
    staking (cfg.incentives.doDepositDexShare who lpShareCurrencyId increment.2)
  modify fun t => { t with
    liquidityPool :=
      t.liquidityPool.insert tradingPair (addPair (s.pool tradingPair) increment.1) }

/-- The part of both pools that a number of shares stands for. -/
def liquidityDecrement (removeShare totalShares : ℕ) (pool : ℕ × ℕ) : ℕ × ℕ :=
  let proportion := (FixedU128.checkedFromRational removeShare totalShares).getD 0
  (FixedU128.saturatingMulInt proportion pool.1, FixedU128.saturatingMulInt proportion pool.2)

def doRemoveLiquidity (who : A) (currencyIdA currencyIdB : CurrencyId)
    (removeShare minWithdrawnA minWithdrawnB : ℕ) (byWithdraw : Bool) : DexM A E Unit := do
  if removeShare = 0 then return
  let tradingPair ← Dispatch.okOr (TradingPair.fromTokenCurrencyIds currencyIdA currencyIdB)
    (.module .InvalidCurrencyId)
  let lpShareCurrencyId ←
    Dispatch.okOr tradingPair.getDexShareCurrencyId (.module .InvalidCurrencyId)
  let s ← get
  let minWithdrawn := inPairOrder tradingPair currencyIdA minWithdrawnA minWithdrawnB
  let pool := s.pool tradingPair
  let decrement := liquidityDecrement removeShare (s.ledger.issuance lpShareCurrencyId) pool
  Dispatch.ensure (minWithdrawn.1 ≤ decrement.1 ∧ minWithdrawn.2 ≤ decrement.2)
    (.module .UnacceptableLiquidityWithdrawn)
  Dispatch.when byWithdraw <|
    staking (cfg.incentives.doWithdrawDexShare who lpShareCurrencyId removeShare)
  withdraw cfg lpShareCurrencyId who removeShare
  transfer cfg tradingPair.currency0 cfg.accountId who decrement.1
  transfer cfg tradingPair.currency1 cfg.accountId who decrement.2
  modify fun t => { t with
    liquidityPool := t.liquidityPool.insert tradingPair
      (pool.1 - decrement.1, pool.2 - decrement.2) }

/-- The first and the last currency of a path. -/
def pathEnds (path : List CurrencyId) : Option (CurrencyId × CurrencyId) :=
  match path.head?, path.getLast? with
  | some c, some c' => some (c, c')
  | _, _ => none

/-- Take the supply in, move it through the pools of the path and pay the target out. The path
has at least two currencies, so its ends exist. -/
def settleSwap (who : A) (path : List CurrencyId) (amounts : List ℕ)
    (supplyAmount targetAmount : ℕ) : DexM A E Unit := do
  let ends ← Dispatch.okOr (pathEnds path) (.module .InvalidTradingPathLength)
  transfer cfg ends.1 who cfg.accountId supplyAmount
  modify (swapByPath path amounts)
  transfer cfg ends.2 cfg.accountId who targetAmount

def doSwapWithExactSupply (who : A) (path : List CurrencyId) (supplyAmount minTargetAmount : ℕ)
    (priceImpactLimit : Option ℕ) : DexM A E ℕ := Dispatch.transactional do
  let s ← get
  let amounts ← Dispatch.ofExcept <|
    (getTargetAmounts cfg.tradingPathLimit s path supplyAmount priceImpactLimit).mapError .module
  let actualTargetAmount := amounts.getLastD 0
  Dispatch.ensure (minTargetAmount ≤ actualTargetAmount) (.module .InsufficientTargetAmount)
  settleSwap cfg who path amounts supplyAmount actualTargetAmount
  return actualTargetAmount

def doSwapWithExactTarget (who : A) (path : List CurrencyId) (targetAmount maxSupplyAmount : ℕ)
    (priceImpactLimit : Option ℕ) : DexM A E ℕ := Dispatch.transactional do
  let s ← get
  let amounts ← Dispatch.ofExcept <|
    (getSupplyAmounts cfg.tradingPathLimit s path targetAmount priceImpactLimit).mapError .module
  let actualSupplyAmount := amounts.headD 0
  Dispatch.ensure (actualSupplyAmount ≤ maxSupplyAmount) (.module .ExcessiveSupplyAmount)
  settleSwap cfg who path amounts actualSupplyAmount targetAmount
  return actualSupplyAmount

/-! ## The extrinsics -/

def ensureSigned (origin : Origin (Signer cfg)) : DexM A E A :=
  match origin with
  | .signed who => pure who.1
  | .root => throw .badOrigin

/-- The origin as the configuration's filters see it. -/
def Origin.forget {cfg : Config A E} : Origin (Signer cfg) → Origin A
  | .root => .root
  | .signed who => .signed who.1

def swapWithExactSupply (origin : Origin (Signer cfg)) (path : List CurrencyId)
    (supplyAmount minTargetAmount : ℕ) : DexM A E Unit := Dispatch.transactional do
  let who ← ensureSigned cfg origin
  let _ ← doSwapWithExactSupply cfg who path supplyAmount minTargetAmount none

def swapWithExactTarget (origin : Origin (Signer cfg)) (path : List CurrencyId)
    (targetAmount maxSupplyAmount : ℕ) : DexM A E Unit := Dispatch.transactional do
  let who ← ensureSigned cfg origin
  let _ ← doSwapWithExactTarget cfg who path targetAmount maxSupplyAmount none

def addLiquidity (origin : Origin (Signer cfg)) (currencyIdA currencyIdB : CurrencyId)
    (maxAmountA maxAmountB minShareIncrement : ℕ) (depositIncrementShare : Bool) :
    DexM A E Unit := Dispatch.transactional do
  let who ← ensureSigned cfg origin
  let tradingPair ← Dispatch.okOr (TradingPair.fromTokenCurrencyIds currencyIdA currencyIdB)
    (.module .InvalidCurrencyId)
  let s ← get
  match s.tradingPairStatus tradingPair with
  | .Enabled =>
      doAddLiquidity cfg who currencyIdA currencyIdB maxAmountA maxAmountB minShareIncrement
        depositIncrementShare
  | .Provisioning _ =>
      doAddProvision cfg who currencyIdA currencyIdB maxAmountA maxAmountB
      modify (convertToEnabledIfPossible cfg tradingPair)
  | .NotEnabled => throw (.module .NotEnabledTradingPair)

def removeLiquidity (origin : Origin (Signer cfg)) (currencyIdA currencyIdB : CurrencyId)
    (removeShare minWithdrawnA minWithdrawnB : ℕ) (byWithdraw : Bool) : DexM A E Unit :=
  Dispatch.transactional do
    let who ← ensureSigned cfg origin
    doRemoveLiquidity cfg who currencyIdA currencyIdB removeShare minWithdrawnA minWithdrawnB
      byWithdraw

/-- Register the address of an ERC-20 currency with the mapping. -/
def setErc20Mapping (currencyId : CurrencyId) : DexM A E Unit :=
  match currencyId with
  | .Erc20 address =>
      Dispatch.onComponent State.external (fun e s => { s with external := e })
        (fun _ : Unit => .mapping) fun e => (cfg.mapping.setErc20Mapping address e).elim
          (.error ()) .ok
  | _ => pure ()

def listTradingPair (origin : Origin (Signer cfg)) (currencyIdA currencyIdB : CurrencyId)
    (minContributionA minContributionB targetProvisionA targetProvisionB notBefore : ℕ) :
    DexM A E Unit := Dispatch.transactional do
  Dispatch.ensure (cfg.listingOrigin origin.forget) .badOrigin
  Dispatch.ensure (currencyIdA ≠ currencyIdB) (.module .NotAllowedList)
  let tradingPair ← Dispatch.okOr (TradingPair.fromTokenCurrencyIds currencyIdA currencyIdB)
    (.module .InvalidCurrencyId)
  let dexShareCurrencyId ←
    Dispatch.okOr tradingPair.getDexShareCurrencyId (.module .InvalidCurrencyId)
  let s ← get
  Dispatch.ensure (s.tradingPairStatus tradingPair = .NotEnabled) (.module .MustBeNotEnabled)
  Dispatch.ensure (s.ledger.issuance dexShareCurrencyId = 0) (.module .NotAllowedList)
  setErc20Mapping cfg currencyIdA
  setErc20Mapping cfg currencyIdB
  modify fun t => { t with
    tradingPairStatuses := t.tradingPairStatuses.insert tradingPair (.Provisioning
      { minContribution := inPairOrder tradingPair currencyIdA minContributionA minContributionB
        targetProvision := inPairOrder tradingPair currencyIdA targetProvisionA targetProvisionB
        accumulatedProvision := (0, 0)
        notBefore := notBefore }) }

def enableTradingPair (origin : Origin (Signer cfg)) (currencyIdA currencyIdB : CurrencyId) :
    DexM A E Unit := Dispatch.transactional do
  Dispatch.ensure (cfg.listingOrigin origin.forget) .badOrigin
  let tradingPair ← Dispatch.okOr (TradingPair.fromTokenCurrencyIds currencyIdA currencyIdB)
    (.module .InvalidCurrencyId)
  let s ← get
  Dispatch.ensure (s.tradingPairStatus tradingPair = .NotEnabled) (.module .MustBeNotEnabled)
  modify fun t => { t with
    tradingPairStatuses := t.tradingPairStatuses.insert tradingPair .Enabled }

/-- Pay a contributor of a pair back and drop its reference. -/
def refundProvision (tradingPair : TradingPair) (entry : A × (ℕ × ℕ)) : DexM A E PUnit := do
  transfer cfg tradingPair.currency0 cfg.accountId entry.1 entry.2.1
  transfer cfg tradingPair.currency1 cfg.accountId entry.1 entry.2.2
  modify fun t => { t with system := t.system.decConsumers entry.1 }

def disableTradingPair (origin : Origin (Signer cfg)) (currencyIdA currencyIdB : CurrencyId) :
    DexM A E Unit := Dispatch.transactional do
  Dispatch.ensure (cfg.listingOrigin origin.forget) .badOrigin
  let tradingPair ← Dispatch.okOr (TradingPair.fromTokenCurrencyIds currencyIdA currencyIdB)
    (.module .InvalidCurrencyId)
  let s ← get
  match s.tradingPairStatus tradingPair with
  | .Enabled =>
      modify fun t => { t with
        tradingPairStatuses := t.tradingPairStatuses.insert tradingPair .NotEnabled }
  | .Provisioning _ =>
      (s.provisionsOf tradingPair).forM (refundProvision cfg tradingPair)
      modify fun t => { t with
        provisioningPool := t.drained tradingPair
        tradingPairStatuses := t.tradingPairStatuses.erase tradingPair }
  | .NotEnabled => throw (.module .NotEnabledTradingPair)

/-- The exchange reads its fee as one numerator and denominator. -/
def updateExchangeFee (origin : Origin (Signer cfg)) (numerator denominator : ℕ) :
    DexM A E Unit := Dispatch.transactional do
  Dispatch.ensure (cfg.updateOrigin origin.forget) .badOrigin
  modify fun t => { t with exchangeFee := (numerator, denominator) }

end Calls

/-! ## Runs -/

/-- What happens outside the exchange between two of its calls: blocks pass and other pallets and
accounts change their balances, but not those of the module account. -/
structure Outside (A E : Type) (module : A) where
  act : State A E → Ledger CurrencyId A × References A × ℕ × E
  module_free : ∀ s c, (act s).1.free c module = s.ledger.free c module

inductive Call (cfg : Config A E)
  | swapWithExactSupply (origin : Origin (Signer cfg)) (path : List CurrencyId)
      (supplyAmount minTargetAmount : ℕ)
  | swapWithExactTarget (origin : Origin (Signer cfg)) (path : List CurrencyId)
      (targetAmount maxSupplyAmount : ℕ)
  | addLiquidity (origin : Origin (Signer cfg)) (currencyIdA currencyIdB : CurrencyId)
      (maxAmountA maxAmountB minShareIncrement : ℕ) (depositIncrementShare : Bool)
  | removeLiquidity (origin : Origin (Signer cfg)) (currencyIdA currencyIdB : CurrencyId)
      (removeShare minWithdrawnA minWithdrawnB : ℕ) (byWithdraw : Bool)
  | listTradingPair (origin : Origin (Signer cfg)) (currencyIdA currencyIdB : CurrencyId)
      (minContributionA minContributionB targetProvisionA targetProvisionB notBefore : ℕ)
  | enableTradingPair (origin : Origin (Signer cfg)) (currencyIdA currencyIdB : CurrencyId)
  | disableTradingPair (origin : Origin (Signer cfg)) (currencyIdA currencyIdB : CurrencyId)
  | updateExchangeFee (origin : Origin (Signer cfg)) (numerator denominator : ℕ)
  | outside (o : Outside A E cfg.accountId)

section Runs

variable [DecidableEq A] (cfg : Config A E)

/-- The state after a call, successful or failed. -/
def step (s : State A E) : Call cfg → State A E
  | .swapWithExactSupply o path n m => (swapWithExactSupply cfg o path n m).commit s
  | .swapWithExactTarget o path n m => (swapWithExactTarget cfg o path n m).commit s
  | .addLiquidity o a b x y m d => (addLiquidity cfg o a b x y m d).commit s
  | .removeLiquidity o a b n x y w => (removeLiquidity cfg o a b n x y w).commit s
  | .listTradingPair o a b mA mB tA tB n => (listTradingPair cfg o a b mA mB tA tB n).commit s
  | .enableTradingPair o a b => (enableTradingPair cfg o a b).commit s
  | .disableTradingPair o a b => (disableTradingPair cfg o a b).commit s
  | .updateExchangeFee o n d => (updateExchangeFee cfg o n d).commit s
  | .outside o =>
      let (ledger, system, blockNumber, external) := o.act s
      { s with ledger, system, blockNumber, external }

/-- All maps of the exchange are empty and its account holds nothing. -/
structure Genesis (s : State A E) : Prop where
  liquidityPool : s.liquidityPool = ∅
  tradingPairStatuses : s.tradingPairStatuses = ∅
  provisioningPool : s.provisioningPool = ∅
  module_free : ∀ c, s.ledger.free c cfg.accountId = 0

end Runs

end Setheum.Dex
