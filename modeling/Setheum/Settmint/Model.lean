import Setheum.Lib.Dispatch
import Setheum.Lib.Ledger
import Setheum.Lib.References
import Setheum.Lib.Run
import Setheum.Lib.StorageMap
import Setheum.Primitives.Currency

/-!
# SettMint: the gateway, the engine and the manager

Accounts deposit the reserve currency and issue standard currencies against it. The manager keeps
the positions and their totals, the engine converts units to values and validates positions, and
the gateway is what accounts call.

Three of the engine's functions return a plain number but use `ensure!`, which returns an error
from a function that cannot carry one; here they fail with that error. The gateway writes `true`
into an authorisation map of balances; here an authorisation is a flag.
-/

set_option autoImplicit false

namespace Setheum.Settmint

open StorageMap

/-- A reserved standard position. -/
structure Position where
  reserve : ℕ
  standard : ℕ
  deriving DecidableEq, Repr

/-- The position that is not stored. -/
def Position.zero : Position := ⟨0, 0⟩

inductive ManagerError
  | StandardOverflow
  | StandardTooLow
  | ReserveOverflow
  | ReserveTooLow
  | AmountConvertFailed
  | InvalidStandardType
  deriving DecidableEq, Repr

inductive EngineError
  | InvalidStandardType
  | RemainStandardValueTooSmall
  | InvalidFeedPrice
  deriving DecidableEq, Repr

inductive DispatchError
  | manager (e : ManagerError)
  | engine (e : EngineError)
  | NoAuthorization
  | currency (e : Ledger.Error)
  | panicked
  deriving DecidableEq, Repr

/-- The storages of the three pallets and those they read; `prices` is the price source, and
`external` the storage of the update handler. -/
structure State (A E : Type) where
  ledger : Ledger CurrencyId A
  system : References A
  positions : Map (CurrencyId × A) Position
  totalPositions : Map CurrencyId Position
  standardExchangeRate : Map CurrencyId ℕ
  authorization : Map (A × CurrencyId × A) Bool
  prices : CurrencyId → CurrencyId → Option ℕ
  external : E

structure Config (A E : Type) where
  rules : Ledger.Rules CurrencyId A
  accountId : A
  managerStandardCurrencyIds : List CurrencyId
  engineStandardCurrencyIds : List CurrencyId
  reserveCurrencyId : CurrencyId
  defaultStandardExchangeRate : ℕ
  minimumStandardValue : ℕ
  onUpdateSettMint : A → CurrencyId → ℤ → ℕ → E → E

/-- An account that can sign: the manager's module account has no key. -/
abbrev Signer {A E : Type} (cfg : Config A E) := {a : A // a ≠ cfg.accountId}

abbrev SettM (A E : Type) := Dispatch DispatchError (State A E)

variable {A E : Type} [DecidableEq A]

def State.position (s : State A E) (currencyId : CurrencyId) (who : A) : Position :=
  get Position.zero s.positions (currencyId, who)

def State.totalPosition (s : State A E) (currencyId : CurrencyId) : Position :=
  get Position.zero s.totalPositions currencyId

variable (cfg : Config A E)

/-! ## The engine -/

omit [DecidableEq A] in
/-- The stored rate of a standard currency, or the default. -/
def getStandardExchangeRate (s : State A E) (currencyId : CurrencyId) : Except EngineError ℕ :=
  if currencyId ∈ cfg.engineStandardCurrencyIds then
    .ok (get cfg.defaultStandardExchangeRate s.standardExchangeRate currencyId)
  else .error .InvalidStandardType

/-- `StandardExchangeRateConvertor`: an amount of units as a value. -/
def convert (s : State A E) (currencyId : CurrencyId) (balance : ℕ) : Except EngineError ℕ :=
  match getStandardExchangeRate cfg s currencyId with
  | .ok rate => .ok (FixedU128.saturatingMulInt rate balance)
  | .error e => .error e

def getStandardValue (s : State A E) (currencyId : CurrencyId) (standardBalance : ℕ) :
    Except EngineError ℕ :=
  if currencyId ∈ cfg.engineStandardCurrencyIds then convert cfg s currencyId standardBalance
  else .error .InvalidStandardType

def calculateReserveRatio (s : State A E) (currencyId : CurrencyId)
    (reserveBalance standardBalance price : ℕ) : Except EngineError ℕ :=
  if currencyId ∈ cfg.engineStandardCurrencyIds then
    let lockedReserveValue := FixedU128.saturatingMulInt price reserveBalance
    match getStandardValue cfg s currencyId standardBalance with
    | .ok standardValue =>
        .ok ((FixedU128.checkedFromRational lockedReserveValue standardValue).getD 0)
    | .error e => .error e
  else .error .InvalidStandardType

/-- `StandardValidator` of the engine. The ratio is computed, and nothing is done with it. -/
def checkPositionValid (s : State A E) (currencyId : CurrencyId)
    (reserveBalance standardBalance : ℕ) : Except EngineError Unit :=
  if standardBalance = 0 then .ok ()
  else do
    let standardValue ← getStandardValue cfg s currencyId standardBalance
    let feedPrice ←
      match s.prices cfg.reserveCurrencyId currencyId with
      | some price => .ok price
      | none => .error .InvalidFeedPrice
    let _reserveRatio ←
      calculateReserveRatio cfg s currencyId reserveBalance standardBalance feedPrice
    if ¬ currencyId ∈ cfg.engineStandardCurrencyIds then .error .InvalidStandardType
    else if standardValue < cfg.minimumStandardValue then .error .RemainStandardValueTooSmall
    else .ok ()

/-! ## The manager -/

/-- A balance after a signed adjustment, `none` when it does not fit. -/
def applyAmount (balance : ℕ) (adjustment : ℤ) : Option ℕ :=
  if 0 < adjustment then Balance.checkedAdd balance (Amount.saturatingAbs adjustment)
  else Balance.checkedSub balance (Amount.saturatingAbs adjustment)

/-- The error of an adjustment that does not fit. -/
def reserveError (adjustment : ℤ) : DispatchError :=
  if 0 < adjustment then .manager .ReserveOverflow else .manager .ReserveTooLow

def standardError (adjustment : ℤ) : DispatchError :=
  if 0 < adjustment then .manager .StandardOverflow else .manager .StandardTooLow

/-- The counters after a position of `who` changes from `p` to `p'`: a position that was zero takes
a reference, a missing provider being only logged, and one that becomes zero drops it. -/
def updateReferences (who : A) (p p' : Position) (system : References A) : References A :=
  let opened := if p = Position.zero then (system.incConsumers who).getD system else system
  if p' = Position.zero then opened.decConsumers who else opened

/-- Mutate the records of reserves and standards. -/
def updateReserve (who : A) (currencyId : CurrencyId) (reserveAdjustment standardAdjustment : ℤ) :
    SettM A E Unit := do
  let s ← get
  let p := s.position currencyId who
  let newReserve ←
    Dispatch.okOr (applyAmount p.reserve reserveAdjustment) (reserveError reserveAdjustment)
  let newStandard ←
    Dispatch.okOr (applyAmount p.standard standardAdjustment) (standardError standardAdjustment)
  modify fun t => { t with
    system := updateReferences who p ⟨newReserve, newStandard⟩ t.system
    external := cfg.onUpdateSettMint who currencyId standardAdjustment p.standard t.external
    positions := store Position.zero t.positions (currencyId, who) ⟨newReserve, newStandard⟩ }
  let total := s.totalPosition currencyId
  let totalStandard ←
    Dispatch.okOr (applyAmount total.standard standardAdjustment) (standardError standardAdjustment)
  let totalReserve ←
    Dispatch.okOr (applyAmount total.reserve reserveAdjustment) (reserveError reserveAdjustment)
  modify fun t => { t with
    totalPositions := t.totalPositions.insert currencyId ⟨totalReserve, totalStandard⟩ }

def transfer (c : CurrencyId) (source target : A) (n : ℕ) : SettM A E Unit :=
  Dispatch.onComponent State.ledger (fun l s => { s with ledger := l }) .currency
    (Ledger.transfer cfg.rules c source target n)

/-- `issue_standard` of the treasury. -/
def issueStandard (currencyId : CurrencyId) (who : A) (standard : ℕ) : SettM A E Unit :=
  Dispatch.onComponent State.ledger (fun l s => { s with ledger := l }) .currency
    (Ledger.deposit cfg.rules currencyId who standard)

/-- `burn_standard` of the treasury. -/
def burnStandard (currencyId : CurrencyId) (who : A) (standard : ℕ) : SettM A E Unit :=
  Dispatch.onComponent State.ledger (fun l s => { s with ledger := l }) .currency
    (Ledger.withdraw cfg.rules currencyId who standard)

/-- An engine function, as the manager calls it. -/
def engine {α : Type} (f : State A E → Except EngineError α) : SettM A E α := do
  let s ← get
  Dispatch.ofExcept ((f s).mapError .engine)

/-- `adjust_position` of the manager. -/
def managerAdjustPosition (who : A) (currencyId : CurrencyId)
    (reserveAdjustment standardAdjustment : ℤ) : SettM A E Unit := Dispatch.transactional do
  updateReserve cfg who currencyId reserveAdjustment standardAdjustment
  let reserveBalanceAdjustment := Amount.saturatingAbs reserveAdjustment
  let standardBalanceAdjustment := Amount.saturatingAbs standardAdjustment
  Dispatch.ensure (currencyId ∈ cfg.managerStandardCurrencyIds) (.manager .InvalidStandardType)
  Dispatch.when (reserveAdjustment ≠ 0) do
    let amount ← engine fun s => convert cfg s cfg.reserveCurrencyId reserveBalanceAdjustment
    if 0 < reserveAdjustment then transfer cfg cfg.reserveCurrencyId who cfg.accountId amount
    else transfer cfg cfg.reserveCurrencyId cfg.accountId who amount
  Dispatch.when (standardAdjustment ≠ 0) do
    let amount ← engine fun s => convert cfg s currencyId standardBalanceAdjustment
    if 0 < standardAdjustment then issueStandard cfg currencyId who amount
    else burnStandard cfg currencyId who amount
  let s ← get
  let p := s.position currencyId who
  engine fun s => checkPositionValid cfg s currencyId p.reserve p.standard

/-- Move the whole position of `source` to `target`. -/
def transferReserve (source target : A) (currencyId : CurrencyId) : SettM A E Unit := do
  let s ← get
  let p := s.position currencyId source
  let q := s.position currencyId target
  let newToReserveBalance ← Dispatch.okOr (Balance.checkedAdd q.reserve p.reserve) .panicked
  let newToStandardBalance ← Dispatch.okOr (Balance.checkedAdd q.standard p.standard) .panicked
  engine fun s => checkPositionValid cfg s currencyId newToReserveBalance newToStandardBalance
  Dispatch.ensure ((p.reserve : ℤ) ≤ Amount.maxValue) (.manager .AmountConvertFailed)
  Dispatch.ensure ((p.standard : ℤ) ≤ Amount.maxValue) (.manager .AmountConvertFailed)
  updateReserve cfg source currencyId (-p.reserve) (-p.standard)
  updateReserve cfg target currencyId p.reserve p.standard

/-! ## The gateway -/

/-- `adjust_position` of the engine passes on to the manager. -/
def adjustPosition (who : Signer cfg) (currencyId : CurrencyId)
    (reserveAdjustment standardAdjustment : ℤ) : SettM A E Unit :=
  Dispatch.transactional <|
    managerAdjustPosition cfg who.1 currencyId reserveAdjustment standardAdjustment

def checkAuthorization (source target : A) (currencyId : CurrencyId) : SettM A E Unit := do
  let s ← get
  Dispatch.ensure
    (source = target ∨ get false s.authorization (source, currencyId, target) = true)
    .NoAuthorization

def transferPositionFrom (target : Signer cfg) (currencyId : CurrencyId) (source : A) :
    SettM A E Unit := Dispatch.transactional do
  checkAuthorization source target.1 currencyId
  transferReserve cfg source target.1 currencyId

def authorize (source : Signer cfg) (currencyId : CurrencyId) (target : A) : SettM A E Unit :=
  Dispatch.transactional <| modify fun s =>
    { s with authorization := s.authorization.insert (source.1, currencyId, target) true }

def unauthorize (source : Signer cfg) (currencyId : CurrencyId) (target : A) : SettM A E Unit :=
  Dispatch.transactional <| modify fun s =>
    { s with authorization := s.authorization.erase (source.1, currencyId, target) }

def unauthorizeAll (source : Signer cfg) : SettM A E Unit :=
  Dispatch.transactional <| modify fun s =>
    { s with authorization := restrict (fun k => ¬ k.1 = source.1) s.authorization }

/-! ## Runs -/

/-- What happens outside SettMint between two of its calls: prices move and other accounts and
pallets change balances and providers, but nothing is taken from the manager's account and the
consumer references are left alone. -/
structure Outside (cfg : Config A E) where
  ledger : State A E → Ledger CurrencyId A
  system : State A E → References A
  prices : State A E → CurrencyId → CurrencyId → Option ℕ
  external : State A E → E
  manager_free : ∀ s c, s.ledger.free c cfg.accountId ≤ (ledger s).free c cfg.accountId
  consumers_eq : ∀ s a, (system s).consumers a = s.system.consumers a

inductive Call (cfg : Config A E)
  | adjustPosition (who : Signer cfg) (currencyId : CurrencyId)
      (reserveAdjustment standardAdjustment : ℤ)
  | transferPositionFrom (target : Signer cfg) (currencyId : CurrencyId) (source : A)
  | authorize (source : Signer cfg) (currencyId : CurrencyId) (target : A)
  | unauthorize (source : Signer cfg) (currencyId : CurrencyId) (target : A)
  | unauthorizeAll (source : Signer cfg)
  | outside (o : Outside cfg)

/-- The dispatch of a call of the gateway. -/
def dispatch : Call cfg → SettM A E Unit
  | .adjustPosition who c ra sa => adjustPosition cfg who c ra sa
  | .transferPositionFrom target c source => transferPositionFrom cfg target c source
  | .authorize source c target => authorize cfg source c target
  | .unauthorize source c target => unauthorize cfg source c target
  | .unauthorizeAll source => unauthorizeAll cfg source
  | .outside o => modify fun s =>
      { s with ledger := o.ledger s, system := o.system s, prices := o.prices s,
               external := o.external s }

/-- The state after a call, successful or failed. -/
def step (s : State A E) (call : Call cfg) : State A E := (dispatch cfg call).commit s

/-- No position is open and no total is recorded. -/
structure Genesis (s : State A E) : Prop where
  positions : s.positions = ∅
  totalPositions : s.totalPositions = ∅

end Setheum.Settmint
