import Mathlib.Data.List.Destutter
import Setheum.Lib.Dispatch
import Setheum.Lib.FixedPoint
import Setheum.Primitives.Currency

/-!
# Transaction fees

The fee of a transaction is withdrawn before it is dispatched, for the weight it declares. After it
the fee for the weight that it took is computed, and what was withdrawn beyond that is refunded. A
payer without enough of the native currency pays by swapping other currencies first.

The pallet of the native currency is a parameter, `Currency`, with laws for what its withdrawals
and deposits do to free balances and to the total issuance. An amount that was withdrawn and not
yet deposited, or the reverse, is an imbalance; the issuance changes only when one is dropped. So
are the other currencies, the exchange and the handler of fees parameters. What is handed to the
handler is recorded in `payments`, the fee first and then the tip.
-/

set_option autoImplicit false

namespace Setheum.TransactionPayment

inductive DispatchClass
  | Normal
  | Operational
  | Mandatory
  deriving DecidableEq, Repr

inductive Pays
  | Yes
  | No
  deriving DecidableEq, Repr

structure DispatchInfo where
  weight : ℕ
  dispatchClass : DispatchClass
  paysFee : Pays
  deriving DecidableEq, Repr

structure PostDispatchInfo where
  actualWeight : Option ℕ
  paysFee : Pays
  deriving DecidableEq, Repr

/-- The weight that was taken, at most what was declared. -/
def PostDispatchInfo.calcActualWeight (post : PostDispatchInfo) (info : DispatchInfo) : ℕ :=
  match post.actualWeight with
  | some actualWeight => min actualWeight info.weight
  | none => info.weight

/-- `PostDispatchInfo::pays_fee`. -/
def PostDispatchInfo.pays (post : PostDispatchInfo) (info : DispatchInfo) : Pays :=
  if info.paysFee = .No ∨ post.paysFee = .No then .No else .Yes

structure InclusionFee where
  baseFee : ℕ
  lenFee : ℕ
  adjustedWeightFee : ℕ
  deriving DecidableEq, Repr

structure FeeDetails where
  inclusionFee : Option InclusionFee
  tip : ℕ
  deriving DecidableEq, Repr

def InclusionFee.inclusionFee (f : InclusionFee) : ℕ :=
  Balance.saturatingAdd (Balance.saturatingAdd f.baseFee f.lenFee) f.adjustedWeightFee

def FeeDetails.finalFee (f : FeeDetails) : ℕ :=
  Balance.saturatingAdd (f.inclusionFee.elim 0 InclusionFee.inclusionFee) f.tip

/-- What a withdrawal is for. -/
inductive WithdrawReasons
  | transactionPayment
  /-- `TRANSACTION_PAYMENT | TIP`. -/
  | transactionPaymentAndTip
  deriving DecidableEq, Repr

/-- The pallet of the native currency with its state. -/
structure Currency (A E : Type) [DecidableEq A] where
  freeBalance : E → A → ℕ
  issuance : E → ℕ
  ensureCanWithdraw : E → A → ℕ → WithdrawReasons → ℕ → Bool
  /-- `withdraw` with `KeepAlive`; the imbalance is the amount. -/
  withdraw : A → ℕ → WithdrawReasons → E → Option E
  depositIntoExisting : A → ℕ → E → Option E
  /-- What dropping a deposit without a withdrawal does. -/
  dropPositive : ℕ → E → E
  freeBalance_withdraw : ∀ {who n reasons e e'}, withdraw who n reasons e = some e' →
    ∀ a, freeBalance e' a + (if a = who then n else 0) = freeBalance e a
  issuance_withdraw : ∀ {who n reasons e e'}, withdraw who n reasons e = some e' →
    issuance e' = issuance e
  freeBalance_depositIntoExisting : ∀ {who n e e'}, depositIntoExisting who n e = some e' →
    ∀ a, freeBalance e' a = freeBalance e a + if a = who then n else 0
  issuance_depositIntoExisting : ∀ {who n e e'}, depositIntoExisting who n e = some e' →
    issuance e' = issuance e
  freeBalance_dropPositive : ∀ n e a, freeBalance (dropPositive n e) a = freeBalance e a
  issuance_dropPositive : ∀ n e, issuance (dropPositive n e) = Balance.saturatingAdd (issuance e) n

structure Config (A E : Type) [DecidableEq A] where
  allNonNativeCurrencyIds : List CurrencyId
  nativeCurrencyId : CurrencyId
  getSetterCurrencyId : CurrencyId
  currency : Currency A E
  /-- `MultiCurrency::free_balance`. -/
  multiFreeBalance : E → CurrencyId → A → ℕ
  /-- `DEX::swap_with_exact_target`: the path, the target, the supply that is accepted and the
  limit of the price impact. It changes nothing when it fails. -/
  swapWithExactTarget : A → List CurrencyId → ℕ → ℕ → Option ℕ → E → Option E
  maxSlippageSwapWithDex : ℕ
  transactionByteFee : ℕ
  /-- `WeightToFee::calc`. -/
  weightToFeeCalc : ℕ → ℕ
  /-- The maximum weight of a block. -/
  maxBlock : ℕ
  baseExtrinsic : DispatchClass → ℕ
  /-- What the handler does with a fee and a tip. -/
  onTransactionPayment : ℕ → ℕ → E → E

structure State (A E : Type) where
  balances : E
  nextFeeMultiplier : ℕ
  defaultFeeCurrencyId : A → Option CurrencyId
  /-- What was handed to the handler of fees. -/
  payments : List (ℕ × ℕ)

/-- Why a transaction is not valid. -/
inductive Error
  | Payment
  deriving DecidableEq, Repr

abbrev PaymentM (A E : Type) := Dispatch Error (State A E)

variable {A E : Type} [DecidableEq A] (cfg : Config A E)

/-! ## Computing fees -/

def weightToFee (weight : ℕ) : ℕ := cfg.weightToFeeCalc (min weight cfg.maxBlock)

/-- The fee for a length, `len as u32`, and a weight under a multiplier. -/
def computeFeeRaw (multiplier len weight tip : ℕ) (paysFee : Pays)
    (dispatchClass : DispatchClass) : FeeDetails :=
  match paysFee with
  | .Yes =>
      { inclusionFee := some
          { baseFee := weightToFee cfg (cfg.baseExtrinsic dispatchClass)
            lenFee := Balance.saturatingMul cfg.transactionByteFee (len % 2 ^ 32)
            adjustedWeightFee := FixedU128.saturatingMulInt multiplier (weightToFee cfg weight) }
        tip := tip }
  | .No => { inclusionFee := none, tip := tip }

def computeFee (multiplier len : ℕ) (info : DispatchInfo) (tip : ℕ) : ℕ :=
  (computeFeeRaw cfg multiplier len info.weight tip info.paysFee info.dispatchClass).finalFee

def computeActualFee (multiplier len : ℕ) (info : DispatchInfo) (post : PostDispatchInfo)
    (tip : ℕ) : ℕ :=
  (computeFeeRaw cfg multiplier len (post.calcActualWeight info) tip (post.pays info)
    info.dispatchClass).finalFee

/-! ## Paying in other currencies -/

/-- The currencies in the order in which they are tried. Neighbours that are equal are merged. -/
def chargeFeeOrder (defaultFeeCurrencyId : Option CurrencyId) : List CurrencyId :=
  List.destutter (· ≠ ·)
    (match defaultFeeCurrencyId with
    | some currencyId => [currencyId, cfg.nativeCurrencyId] ++ cfg.allNonNativeCurrencyIds
    | none => [cfg.nativeCurrencyId] ++ cfg.allNonNativeCurrencyIds)

def nativeIsEnough (who : A) (fee : ℕ) (reason : WithdrawReasons) (e : E) : Bool :=
  match Balance.checkedSub (cfg.currency.freeBalance e who) fee with
  | some newFreeBalance => cfg.currency.ensureCanWithdraw e who fee reason newFreeBalance
  | none => false

def tradingPath (currencyId : CurrencyId) : List CurrencyId :=
  if currencyId = cfg.getSetterCurrencyId then [cfg.getSetterCurrencyId, cfg.nativeCurrencyId]
  else [currencyId, cfg.getSetterCurrencyId, cfg.nativeCurrencyId]

/-- Try the currencies until there is enough of the native one. -/
def chargeInOrder (who : A) (fee : ℕ) (reason : WithdrawReasons) : List CurrencyId → E → E
  | [], e => e
  | currencyId :: order, e =>
      if currencyId = cfg.nativeCurrencyId then
        if nativeIsEnough cfg who fee reason e then e else chargeInOrder who fee reason order e
      else
        match cfg.swapWithExactTarget who (tradingPath cfg currencyId) fee
            (cfg.multiFreeBalance e currencyId who) (some cfg.maxSlippageSwapWithDex) e with
        | some e' => e'
        | none => chargeInOrder who fee reason order e

def ensureCanChargeFee (who : A) (fee : ℕ) (reason : WithdrawReasons) (s : State A E) :
    State A E :=
  { s with
    balances :=
      chargeInOrder cfg who fee reason (chargeFeeOrder cfg (s.defaultFeeCurrencyId who))
        s.balances }

/-! ## Before and after the dispatch -/

/-- What is handed over from before the dispatch to after it. -/
structure Pre (A : Type) where
  tip : ℕ
  who : A
  imbalance : Option ℕ
  fee : ℕ

def withdrawReason (tip : ℕ) : WithdrawReasons :=
  if tip = 0 then .transactionPayment else .transactionPaymentAndTip

def withdrawFee (tip : ℕ) (who : A) (info : DispatchInfo) (len : ℕ) :
    PaymentM A E (ℕ × Option ℕ) := do
  let s ← get
  let fee := computeFee cfg s.nextFeeMultiplier len info tip
  if fee = 0 then pure (fee, none)
  else
    modify (ensureCanChargeFee cfg who fee (withdrawReason tip))
    let s ← get
    let e ← Dispatch.okOr (cfg.currency.withdraw who fee (withdrawReason tip) s.balances) .Payment
    set { s with balances := e }
    pure (fee, some fee)

def preDispatch (tip : ℕ) (who : A) (info : DispatchInfo) (len : ℕ) : PaymentM A E (Pre A) := do
  let (fee, imbalance) ← withdrawFee cfg tip who info len
  pure ⟨tip, who, imbalance, fee⟩

inductive SameOrOther
  | None
  | Same (amount : ℕ)
  | Other (amount : ℕ)
  deriving DecidableEq, Repr

/-- `Imbalance::offset`: what is left when two opposite imbalances cancel out. -/
def offset (amount other : ℕ) : SameOrOther :=
  if other < amount then .Same (amount - other)
  else if amount < other then .Other (other - amount)
  else .None

/-- `Imbalance::split`. -/
def split (amount first : ℕ) : ℕ × ℕ := (min amount first, amount - min amount first)

def onUnbalanceds (fee tip : ℕ) : PaymentM A E Unit :=
  modify fun s =>
    { s with
      balances := cfg.onTransactionPayment fee tip s.balances
      payments := s.payments ++ [(fee, tip)] }

/-- Refund what was withdrawn beyond the fee; what is left of the payment. An account that is gone
is not created again. -/
def refundExcess (who : A) (payed refund : ℕ) : PaymentM A E ℕ := do
  let s ← get
  match cfg.currency.depositIntoExisting who refund s.balances with
  | some e =>
      set { s with balances := e }
      match offset payed refund with
      | .Same actualPayment => pure actualPayment
      | .None => pure 0
      | .Other excess =>
          modify fun s => { s with balances := cfg.currency.dropPositive excess s.balances }
          throw .Payment
  | none => pure payed

def postDispatch (pre : Pre A) (info : DispatchInfo) (post : PostDispatchInfo) (len : ℕ) :
    PaymentM A E Unit := do
  match pre.imbalance with
  | some payed =>
      let s ← get
      let actualFee := computeActualFee cfg s.nextFeeMultiplier len info post pre.tip
      let actualPayment ← refundExcess cfg pre.who payed (pre.fee - actualFee)
      let (tip, fee) := split actualPayment pre.tip
      onUnbalanceds cfg fee tip
  | none => pure ()

end Setheum.TransactionPayment
