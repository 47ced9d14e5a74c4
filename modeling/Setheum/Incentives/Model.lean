import Setheum.Lib.Dispatch
import Setheum.Lib.Ledger
import Setheum.Lib.Run
import Setheum.Lib.StorageMap
import Setheum.Primitives.Currency

/-!
# Incentives for liquidity shares

A holder of liquidity shares may stake them: they go to the account of this pallet, and the holder
gets as many shares of two reward pools. Rewards accumulate in the pools each period and are
claimed by the holders.

The reward pools are kept by a pallet that is a parameter, `Rewards`. Its laws say what its
functions do to the shares of an account; how rewards are divided is left to it. Calls are modelled
past the checks of privileged origins.
-/

set_option autoImplicit false

namespace Setheum.Incentives

open StorageMap

inductive PoolId
  /-- For those who provide liquidity to any pool. -/
  | DexIncentive (currencyId : CurrencyId)
  /-- For those who provide liquidity to pools of stable currencies. -/
  | DexPremium (currencyId : CurrencyId)
  deriving DecidableEq, Repr

inductive Error
  | NotEnough
  | InvalidCurrencyId
  deriving DecidableEq, Repr

inductive DispatchError
  | module (e : Error)
  | currency (e : Ledger.Error)
  | divisionByZero
  /-- Another pallet's part of the call fails. -/
  | foreign
  deriving DecidableEq, Repr

/-- The reward pools. What a claim pays out is returned; removing shares claims first. -/
structure Rewards (A E : Type) [DecidableEq A] where
  share : E → PoolId → A → ℕ
  /-- The pools with their total shares. -/
  pools : E → List (PoolId × ℕ)
  addShare : A → PoolId → ℕ → E → E
  removeShare : A → PoolId → ℕ → E → ℕ × E
  claimRewards : A → PoolId → E → ℕ × E
  accumulate : PoolId → ℕ → E → E
  share_addShare : ∀ who pool n e pool' a, share (addShare who pool n e) pool' a =
    if pool' = pool ∧ a = who then Balance.saturatingAdd (share e pool' a) n else share e pool' a
  share_removeShare : ∀ who pool n e pool' a, share (removeShare who pool n e).2 pool' a =
    if pool' = pool ∧ a = who then share e pool' a - n else share e pool' a
  share_claimRewards : ∀ who pool e, share (claimRewards who pool e).2 = share e
  share_accumulate : ∀ pool n e, share (accumulate pool n e) = share e

structure State (A E : Type) where
  ledger : Ledger CurrencyId A
  rewards : E
  dexIncentiveRewards : Map CurrencyId ℕ
  dexPremiumRewards : Map CurrencyId ℕ
  accumulatePeriod : ℕ

structure Config (A E : Type) [DecidableEq A] where
  rules : Ledger.Rules CurrencyId A
  rewards : Rewards A E
  /-- The vaults that rewards are issued to and paid from. -/
  dexIncentivePool : A
  dexPremiumPool : A
  stableCurrencyIds : List CurrencyId
  incentiveCurrencyId : CurrencyId
  premiumCurrencyId : CurrencyId
  /-- The account that keeps the liquidity shares. -/
  accountId : A
  dexIncentivePool_ne : dexIncentivePool ≠ accountId
  dexPremiumPool_ne : dexPremiumPool ≠ accountId

variable {A E : Type} [DecidableEq A]

/-- An account other than the pallet's own, which has no key. -/
abbrev Signer (cfg : Config A E) := {a : A // a ≠ cfg.accountId}

abbrev IncentivesM (A E : Type) := Dispatch DispatchError (State A E)

variable (cfg : Config A E)

/-! ## Currencies and reward pools -/

def onLedger {E : Type} (f : Ledger CurrencyId A → Except Ledger.Error (Ledger CurrencyId A)) :
    IncentivesM A E Unit :=
  Dispatch.onComponent State.ledger (fun l s => { s with ledger := l }) .currency f

def transfer (currencyId : CurrencyId) (source dest : A) (amount : ℕ) : IncentivesM A E Unit :=
  onLedger (Ledger.transfer cfg.rules currencyId source dest amount)

def deposit (currencyId : CurrencyId) (who : A) (amount : ℕ) : IncentivesM A E Unit :=
  onLedger (Ledger.deposit cfg.rules currencyId who amount)

/-- Pay a reward from the vault of its pool. A failure is dropped. -/
def payout (who : A) (poolId : PoolId) (amount : ℕ) : IncentivesM A E Unit :=
  let (poolAccount, currencyId) :=
    match poolId with
    | .DexIncentive _ => (cfg.dexIncentivePool, cfg.incentiveCurrencyId)
    | .DexPremium _ => (cfg.dexPremiumPool, cfg.premiumCurrencyId)
  Dispatch.ignore (transfer cfg currencyId poolAccount who amount)

def addShare (who : A) (poolId : PoolId) (amount : ℕ) : IncentivesM A E Unit :=
  modify fun s => { s with rewards := cfg.rewards.addShare who poolId amount s.rewards }

def removeShare (who : A) (poolId : PoolId) (amount : ℕ) : IncentivesM A E Unit := do
  let s ← get
  let (reward, rewards) := cfg.rewards.removeShare who poolId amount s.rewards
  set { s with rewards := rewards }
  payout cfg who poolId reward

/-! ## Staking -/

def doDepositDexShare (who : A) (lpCurrencyId : CurrencyId) (amount : ℕ) :
    IncentivesM A E Unit := do
  Dispatch.ensure (lpCurrencyId.isDexShareCurrencyId = true) (.module .InvalidCurrencyId)
  transfer cfg lpCurrencyId who cfg.accountId amount
  addShare cfg who (.DexIncentive lpCurrencyId) amount
  addShare cfg who (.DexPremium lpCurrencyId) amount

def doWithdrawDexShare (who : A) (lpCurrencyId : CurrencyId) (amount : ℕ) :
    IncentivesM A E Unit := do
  Dispatch.ensure (lpCurrencyId.isDexShareCurrencyId = true) (.module .InvalidCurrencyId)
  let s ← get
  Dispatch.ensure
    (amount ≤ cfg.rewards.share s.rewards (.DexIncentive lpCurrencyId) who ∧
      amount ≤ cfg.rewards.share s.rewards (.DexPremium lpCurrencyId) who)
    (.module .NotEnough)
  transfer cfg lpCurrencyId cfg.accountId who amount
  removeShare cfg who (.DexIncentive lpCurrencyId) amount
  removeShare cfg who (.DexPremium lpCurrencyId) amount

def claimRewards (who : A) (poolId : PoolId) : IncentivesM A E Unit := do
  let s ← get
  let (reward, rewards) := cfg.rewards.claimRewards who poolId s.rewards
  set { s with rewards := rewards }
  payout cfg who poolId reward

/-! ## Reward rates and their accumulation -/

def updateDexIncentiveRewards (updates : List (CurrencyId × ℕ)) : IncentivesM A E Unit :=
  updates.forM fun (currencyId, amount) => do
    Dispatch.ensure (currencyId.isDexShareCurrencyId = true) (.module .InvalidCurrencyId)
    modify fun s =>
      { s with dexIncentiveRewards := s.dexIncentiveRewards.insert currencyId amount }

def updateDexPremiumRewards (updates : List (CurrencyId × ℕ)) : IncentivesM A E Unit :=
  updates.forM fun (currencyId, amount) => do
    Dispatch.ensure (currencyId.isDexShareCurrencyId = true) (.module .InvalidCurrencyId)
    Dispatch.ensure (currencyId ∈ cfg.stableCurrencyIds) (.module .InvalidCurrencyId)
    modify fun s => { s with dexPremiumRewards := s.dexPremiumRewards.insert currencyId amount }

def updateAccumulatePeriod (blockNumber : ℕ) : IncentivesM A E Unit :=
  modify fun s => { s with accumulatePeriod := blockNumber }

/-- Issue a reward to a vault, and add it to its pool if that succeeds; what was added. -/
def issueReward (poolId : PoolId) (currencyId : CurrencyId) (vault : A) (reward : ℕ) :
    IncentivesM A E ℕ := do
  if reward = 0 then pure 0
  else
    let issued ← Dispatch.attempt (deposit cfg currencyId vault reward)
    match issued with
    | .ok _ =>
        modify fun s => { s with rewards := cfg.rewards.accumulate poolId reward s.rewards }
        pure reward
    | .error _ => pure 0

/-- Accumulate the rewards of one pool; the running totals of the two kinds. -/
def accumulatePool (total : ℕ × ℕ) (pool : PoolId × ℕ) : IncentivesM A E (ℕ × ℕ) := do
  if pool.2 = 0 then pure total
  else
    let s ← get
    match pool.1 with
    | .DexIncentive currencyId =>
        let reward ← issueReward cfg pool.1 cfg.incentiveCurrencyId cfg.dexIncentivePool
          (get 0 s.dexIncentiveRewards currencyId)
        pure (Balance.saturatingAdd total.1 reward, total.2)
    | .DexPremium currencyId =>
        let reward ← issueReward cfg pool.1 cfg.premiumCurrencyId cfg.dexPremiumPool
          (get 0 s.dexPremiumRewards currencyId)
        pure (total.1, Balance.saturatingAdd total.2 reward)

def accumulatePools : List (PoolId × ℕ) → ℕ × ℕ → IncentivesM A E (ℕ × ℕ)
  | [], total => pure total
  | pool :: pools, total => do
      let total ← accumulatePool cfg total pool
      accumulatePools pools total

/-- Every period, rewards are issued for every pool that has shares. -/
def accumulateReward (now : ℕ) : IncentivesM A E (List (CurrencyId × ℕ)) := do
  let s ← get
  Dispatch.ensure (s.accumulatePeriod ≠ 0) .divisionByZero
  if now % s.accumulatePeriod = 0 then
    let (incentive, premium) ← accumulatePools cfg (cfg.rewards.pools s.rewards) (0, 0)
    pure ((if incentive = 0 then [] else [(cfg.incentiveCurrencyId, incentive)])
      ++ if premium = 0 then [] else [(cfg.premiumCurrencyId, premium)])
  else pure []

/-! ## Calls -/

/-- What other pallets do to the ledger: they move no liquidity shares in or out of the account
that keeps them. -/
structure Foreign (cfg : Config A E) where
  run : Ledger CurrencyId A → Option (Ledger CurrencyId A)
  untouched : ∀ l l', run l = some l' → ∀ c, c.isDexShareCurrencyId = true →
    l'.free c cfg.accountId = l.free c cfg.accountId

def foreign (f : Foreign cfg) : IncentivesM A E Unit :=
  Dispatch.onComponent State.ledger (fun l s => { s with ledger := l }) (fun _ => .foreign)
    fun l => (f.run l).elim (.error ()) .ok

/-- The calls of the pallet, those of the exchange that stake or unstake the shares they deal with,
and all else that happens on the chain. -/
inductive Call (cfg : Config A E)
  | depositDexShare (who : Signer cfg) (lpCurrencyId : CurrencyId) (amount : ℕ)
  | withdrawDexShare (who : Signer cfg) (lpCurrencyId : CurrencyId) (amount : ℕ)
  | claimRewards (who : Signer cfg) (poolId : PoolId)
  | updateDexIncentiveRewards (updates : List (CurrencyId × ℕ))
  | updateDexPremiumRewards (updates : List (CurrencyId × ℕ))
  | updateAccumulatePeriod (blockNumber : ℕ)
  | onInitialize (now : ℕ)
  | addLiquidity (who : Signer cfg) (lpCurrencyId : CurrencyId) (shareIncrement : ℕ)
      (before : Foreign cfg)
  | removeLiquidity (who : Signer cfg) (lpCurrencyId : CurrencyId) (removeShare : ℕ)
      (after : Foreign cfg)
  | other (f : Foreign cfg)

def Call.call : Call cfg → IncentivesM A E Unit
  | .depositDexShare who lpCurrencyId amount =>
      Dispatch.transactional (doDepositDexShare cfg who lpCurrencyId amount)
  | .withdrawDexShare who lpCurrencyId amount =>
      Dispatch.transactional (doWithdrawDexShare cfg who lpCurrencyId amount)
  | .claimRewards who poolId => Dispatch.transactional (Incentives.claimRewards cfg who poolId)
  | .updateDexIncentiveRewards updates =>
      Dispatch.transactional (Incentives.updateDexIncentiveRewards updates)
  | .updateDexPremiumRewards updates =>
      Dispatch.transactional (Incentives.updateDexPremiumRewards cfg updates)
  | .updateAccumulatePeriod blockNumber =>
      Dispatch.transactional (Incentives.updateAccumulatePeriod blockNumber)
  | .onInitialize now => do
      let _ ← accumulateReward cfg now
  | .addLiquidity who lpCurrencyId shareIncrement before =>
      Dispatch.transactional do
        foreign cfg before
        doDepositDexShare cfg who lpCurrencyId shareIncrement
  | .removeLiquidity who lpCurrencyId removeShare after =>
      Dispatch.transactional do
        doWithdrawDexShare cfg who lpCurrencyId removeShare
        foreign cfg after
  | .other f => Dispatch.transactional (foreign cfg f)

def step (s : State A E) (c : Call cfg) : State A E := Dispatch.commit (c.call cfg) s

/-- A state that the chain can start in: nobody has staked. -/
structure Genesis (s : State A E) : Prop where
  share : ∀ pool a, cfg.rewards.share s.rewards pool a = 0
  free : ∀ c, c.isDexShareCurrencyId = true → s.ledger.free c cfg.accountId = 0

end Setheum.Incentives
