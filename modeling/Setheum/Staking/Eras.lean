import Mathlib.Data.List.Sort
import Setheum.Staking.Model

/-!
# Eras, payouts and runs of the staking pallet

The session pallet ends a session, starts the next and plans the one after it; a planned session
may plan a new era. At the end of an era its payout is recorded, and `payoutStakers` pays it out,
validator by validator.
-/

set_option autoImplicit false

namespace Setheum.Staking

open StorageMap

variable {A : Type} [DecidableEq A] (cfg : Config A)

/-! ## Paying stakers -/

/-- `make_setter_payout`. A failure to issue is dropped, and the source has no arm for the
destinations `Staked` and `Controller`: nothing is issued for them. -/
def makeSetterPayout (stash : A) (amount : ℕ) (s : State A) : State A :=
  let issue (who : A) : State A :=
    match Ledger.deposit cfg.setterRules () who amount s.setter with
    | .ok l => { s with setter := l }
    | .error _ => s
  match s.payee stash with
  | .Stash => issue stash
  | .Account account => issue account
  | _ => s

/-- Mint native currency to an account if the currency allows it. -/
def mint (allowed : Bool) (who : A) (amount : ℕ) (s : State A) : State A :=
  if allowed then
    { s with native :=
        { s.native with
          free := Function.update s.native.free who (s.native.free who + amount)
          issuance := s.native.issuance + amount } }
  else s

def depositCreating (who : A) (amount : ℕ) (s : State A) : State A :=
  mint (cfg.depositCreatingAllowed s.native who amount) who amount s

def depositIntoExisting (who : A) (amount : ℕ) (s : State A) : State A :=
  mint (cfg.depositIntoExistingAllowed s.native who amount) who amount s

/-- `make_native_payout`, which pays nothing for a zero amount. -/
def makeNativePayout (stash : A) (amount : ℕ) (s : State A) : State A :=
  if amount = 0 then s
  else
    match s.payee stash with
    | .Controller =>
        match s.bonded stash with
        | some controller => depositCreating cfg controller amount s
        | none => s
    | .Stash => depositIntoExisting cfg stash amount s
    | .Staked =>
        match s.bonded stash with
        | none => s
        | some controller =>
            match s.ledger controller with
            | none => s
            | some l =>
                -- the ledger grows whether the deposit succeeds or not
                updateLedger cfg controller (l.stake amount)
                  (depositIntoExisting cfg stash amount s)
    | .Account account => depositCreating cfg account amount s
    | .None => s

def makePayout (s : State A) (payment : A × ℕ × ℕ) : State A :=
  makeNativePayout cfg payment.1 payment.2.2
    (makeSetterPayout cfg payment.1 payment.2.1 s)

/-- What a validator and its nominators are entitled to in an era, in one currency: the part of
the era's payout that the validator's points earn. -/
def validatorTotalPayout (points : EraRewardPoints A) (stash : A) (eraPayout : ℕ) : ℕ :=
  (PerThing.fromRational (get 0 points.individual stash) points.total : Perbill).mul eraPayout

/-- The part of a validator's payout left after its commission. -/
def leftoverPayout (commission : Perbill) (totalPayout : ℕ) : ℕ :=
  totalPayout - commission.mul totalPayout

/-- The part of the leftover that some exposed stake earns. -/
def stakingPayout (commission : Perbill) (exposure : Exposure A) (totalPayout value : ℕ) : ℕ :=
  (PerThing.fromRational value exposure.total : Perbill).mul (leftoverPayout commission totalPayout)

/-- What a validator gets: its commission and the part its own stake earns. -/
def validatorPayout (commission : Perbill) (exposure : Exposure A) (totalPayout : ℕ) : ℕ :=
  stakingPayout commission exposure totalPayout exposure.own + commission.mul totalPayout

/-- The payments of one validator's payout, first its own and then its nominators', each in both
currencies. -/
def stakerPayments (commission : Perbill) (exposure : Exposure A) (stash : A)
    (totalPayout : ℕ × ℕ) : List (A × ℕ × ℕ) :=
  (stash, validatorPayout commission exposure totalPayout.1,
      validatorPayout commission exposure totalPayout.2) ::
    exposure.others.map fun nominator =>
      (nominator.who, stakingPayout commission exposure totalPayout.1 nominator.value,
        stakingPayout commission exposure totalPayout.2 nominator.value)

/-- The payments for a validator in an era with the given recorded payout; `stash` is the stash
that its ledger names. A validator without reward points gets none. -/
def paymentsOf (s : State A) (validatorStash stash : A) (era : ℕ) (eraPayout : ℕ × ℕ) :
    List (A × ℕ × ℕ) :=
  if get 0 (s.erasRewardPoints era).individual stash = 0 then []
  else
    stakerPayments (s.erasValidatorPrefs era validatorStash).commission
      (s.erasStakersClipped era stash) stash
      (validatorTotalPayout (s.erasRewardPoints era) stash eraPayout.1,
        validatorTotalPayout (s.erasRewardPoints era) stash eraPayout.2)

/-- The first era of the history. -/
def State.lastKept (s : State A) : ℕ := s.currentEra.getD 0 - s.historyDepth

/-- The eras claimed so far that are still in the history. -/
def retainedRewards (s : State A) (l : StakingLedger A) : List ℕ :=
  l.claimedRewards.filter fun era => s.lastKept ≤ era

/-- The claimed eras are kept sorted, so `binary_search` finds an era that is there or the place
to insert it. -/
def doPayoutStakers (validatorStash : A) (era : ℕ) : StakingM A Unit := do
  let s ← get
  let currentEra ← Dispatch.okOr s.currentEra (.module .InvalidEraToReward)
  Dispatch.ensure (era ≤ currentEra ∧ currentEra - s.historyDepth ≤ era)
    (.module .InvalidEraToReward)
  let eraPayout ← Dispatch.okOr (s.erasValidatorReward era) (.module .InvalidEraToReward)
  let controller ← Dispatch.okOr (s.bonded validatorStash) (.module .NotStash)
  let ledger ← Dispatch.okOr (s.ledger controller) (.module .NotController)
  Dispatch.ensure (era ∉ retainedRewards s ledger) (.module .AlreadyClaimed)
  modify fun t => { t with
    ledger := Function.update t.ledger controller (some { ledger with
      claimedRewards := (retainedRewards s ledger).orderedInsert (· ≤ ·) era }) }
  modify fun t => (paymentsOf s validatorStash ledger.stash era eraPayout).foldl
    (makePayout cfg) t

def payoutStakers (origin : Origin A) (validatorStash : A) (era : ℕ) : StakingM A Unit := do
  let _ ← ensureSigned origin
  doPayoutStakers cfg validatorStash era

/-! ## The payout of an era -/

/-- Milliseconds per Julian year. -/
def millisecondsPerYear : ℕ := 1000 * 3600 * 24 * 36525 / 100

/-- `inflation::compute_total_payout`, the total payout. -/
def computeTotalPayout (totalStaked totalIssuance eraDuration : ℕ) : ℕ :=
  (PerThing.fromRational eraDuration millisecondsPerYear : Perbill).mul
    (cfg.rewardCurve totalStaked totalIssuance)

/-- `SetheumHalving::native_issuance`. -/
def nativeIssuance (eraDuration : ℕ) : ℕ :=
  if 64 ≤ eraDuration / cfg.halvingInterval then 0
  else cfg.initialIssuance >>> (eraDuration / cfg.halvingInterval)

/-- `ConvertCurve::era_payout`: the validators' payout in Setter, their payout in the native
currency, and the native rest. -/
def eraPayout (totalStaked totalIssuance eraDuration : ℕ) : ℕ × ℕ × ℕ :=
  (computeTotalPayout cfg totalStaked totalIssuance eraDuration,
    nativeIssuance cfg (cfg.nativeIssuancePayout totalStaked totalIssuance eraDuration),
    cfg.nativeIssuancePayout totalStaked totalIssuance eraDuration
      - nativeIssuance cfg (cfg.nativeIssuancePayout totalStaked totalIssuance eraDuration))

/-- Record the payout of an era and mint the rest. -/
def recordPayout (era : ℕ) (payout : ℕ × ℕ × ℕ) (s : State A) : State A :=
  { mint true cfg.rewardRemainder payout.2.2 s with
    erasValidatorReward :=
      Function.update s.erasValidatorReward era (some (payout.1, payout.2.1))
    eraPayouts := ⟨era, payout.1, payout.2.1, payout.2.2⟩ :: s.eraPayouts }

/-- `end_era`; without a start, nothing is paid out. -/
def endEra (activeEra : ActiveEraInfo) (now : ℕ) (s : State A) : State A :=
  match activeEra.start with
  | none => s
  | some start =>
      recordPayout cfg activeEra.index
        (eraPayout cfg (s.erasTotalStake activeEra.index) s.native.issuance (now - start)) s

/-! ## Sessions and eras -/

def clearEraInformation (era : ℕ) (s : State A) : State A :=
  { s with
    erasStakersClipped := Function.update s.erasStakersClipped era fun _ => .default
    erasValidatorPrefs := Function.update s.erasValidatorPrefs era fun _ => .default
    erasValidatorReward := Function.update s.erasValidatorReward era none
    erasRewardPoints := Function.update s.erasRewardPoints era .default
    erasTotalStake := Function.update s.erasTotalStake era 0
    erasStartSessionIndex := Function.update s.erasStartSessionIndex era none }

def storeStakersInfo (exposures : List (A × Exposure A)) (newPlannedEra : ℕ) (s : State A) :
    State A :=
  { s with
    erasStakersClipped := Function.update s.erasStakersClipped newPlannedEra <|
      exposures.foldl (fun clipped e => Function.update clipped e.1
        (e.2.clip cfg.maxNominatorRewardedPerValidator)) (s.erasStakersClipped newPlannedEra)
    erasTotalStake := Function.update s.erasTotalStake newPlannedEra
      (saturatingSum (exposures.map fun e => e.2.total))
    erasValidatorPrefs := Function.update s.erasValidatorPrefs newPlannedEra <|
      exposures.foldl (fun prefs e => Function.update prefs e.1 (s.validatorPrefs e.1))
        (s.erasValidatorPrefs newPlannedEra) }

/-- The era planned next. -/
def State.newPlannedEra (s : State A) : ℕ :=
  match s.currentEra with
  | some era => era + 1
  | none => 0

/-- Plan an era that starts with a session. -/
def planEra (era startSessionIndex : ℕ) (s : State A) : State A :=
  { s with
    currentEra := some era
    erasStartSessionIndex := Function.update s.erasStartSessionIndex era (some startSessionIndex) }

/-- Clear the era that leaves the history when an era is planned. -/
def clearOldEra (newPlannedEra : ℕ) (s : State A) : State A :=
  if s.historyDepth + 1 ≤ newPlannedEra then
    clearEraInformation (newPlannedEra - (s.historyDepth + 1)) s
  else s

def triggerNewEra (startSessionIndex : ℕ) (exposures : List (A × Exposure A)) (s : State A) :
    State A :=
  storeStakersInfo cfg exposures s.newPlannedEra
    (clearOldEra s.newPlannedEra (planEra s.newPlannedEra startSessionIndex s))

/-- The outcome of an election: the supports of the elected, or none when it failed. -/
abbrev Election (A : Type) := Option (List (A × Support A))

def collectExposures (supports : List (A × Support A)) : List (A × Exposure A) :=
  supports.map fun e => (e.1, collectExposure e.1 e.2)

/-- The state after trying to plan a new era, and whether one was planned. -/
def tryTriggerNewEra (startSessionIndex : ℕ) (election : Election A) (s : State A) :
    State A × Bool :=
  match election with
  | none => (s, false)
  | some supports =>
      if supports.length < max s.minimumValidatorCount 1 then
        -- the initial era is allowed to have no exposures
        (if s.currentEra.isNone then planEra 0 startSessionIndex s else s, false)
      else (triggerNewEra cfg startSessionIndex (collectExposures supports) s, true)

/-- Whether a session is due to plan an era. -/
def eraIsDue (forcing : Forcing) (eraLength : ℕ) : Bool :=
  match forcing with
  | .ForceNew | .ForceAlways => true
  | .NotForcing => cfg.sessionsPerEra ≤ eraLength
  | .ForceNone => false

/-- Forcing a single era ends once it is planned. -/
def endForcing (r : State A × Bool) : State A :=
  if r.2 = true ∧ r.1.forceEra = .ForceNew then { r.1 with forceEra := .NotForcing } else r.1

def newSession (sessionIndex : ℕ) (election : Election A) (s : State A) : State A :=
  match s.currentEra with
  | none => (tryTriggerNewEra cfg sessionIndex election s).1
  | some currentEra =>
      if eraIsDue cfg s.forceEra
          (sessionIndex - (s.erasStartSessionIndex currentEra).getD 0) then
        endForcing (tryTriggerNewEra cfg sessionIndex election s)
      else s

/-- The index of the next active era. -/
def State.nextActiveEra (s : State A) : ℕ :=
  match s.activeEra with
  | some e => e.index + 1
  | none => 0

/-- `start_era`: the next era becomes active; its start is set when the block is finalised. -/
def startEra (s : State A) : State A :=
  { s with activeEra := some { index := s.nextActiveEra, start := none } }

/-- Start a session, and with it an era whose first session it is or has been. -/
def startSession (startSession : ℕ) (s : State A) : State A :=
  match s.erasStartSessionIndex s.nextActiveEra with
  | some index => if index ≤ startSession then startEra s else s
  | none => s

/-- End a session, and with it the active era if the next one starts then. -/
def endSession (sessionIndex now : ℕ) (s : State A) : State A :=
  match s.activeEra with
  | none => s
  | some activeEra =>
      if s.erasStartSessionIndex (activeEra.index + 1) = some (sessionIndex + 1) then
        endEra cfg activeEra now s
      else s

/-- The genesis of the session pallet: plan the first two sessions and start the first. -/
def genesisSessions (first second : Election A) (s : State A) : State A :=
  match s.session with
  | some _ => s
  | none =>
      startSession 0
        (newSession cfg 1 second (newSession cfg 0 first { s with session := some 0 }))

/-- The session pallet rotates its sessions: the running one ends, the next starts and the one
after it is planned. -/
def rotateSession (now : ℕ) (election : Election A) (s : State A) : State A :=
  match s.session with
  | none => s
  | some i =>
      newSession cfg (i + 2) election
        (startSession (i + 1) (endSession cfg i now { s with session := some (i + 1) }))

/-- The hook at the end of a block sets the start of an active era without one. -/
def onFinalize (now : ℕ) (s : State A) : State A :=
  match s.activeEra with
  | some ⟨index, none⟩ => { s with activeEra := some ⟨index, some now⟩ }
  | _ => s

def clearEras (eras : List ℕ) (s : State A) : State A :=
  eras.foldl (fun t era => clearEraInformation era t) s

def setHistoryDepth (origin : Origin A) (newHistoryDepth : ℕ) : StakingM A Unit := do
  ensureRoot origin
  let s ← get
  match s.currentEra with
  | none => pure ()
  | some currentEra =>
      let lastKept := currentEra - s.historyDepth
      let newLastKept := currentEra - newHistoryDepth
      modify fun t =>
        { clearEras (List.range' lastKept (newLastKept - lastKept)) t with
          historyDepth := newHistoryDepth }

def forceEras (origin : Origin A) (forcing : Forcing) : StakingM A Unit := do
  ensureRoot origin
  modify fun t => { t with forceEra := forcing }

def forceNoEras (origin : Origin A) : StakingM A Unit := forceEras origin .ForceNone

def forceNewEra (origin : Origin A) : StakingM A Unit := forceEras origin .ForceNew

def forceNewEraAlways (origin : Origin A) : StakingM A Unit := forceEras origin .ForceAlways

/-- Add reward points to validators in the active era. -/
def rewardByIds (validatorsPoints : List (A × ℕ)) (s : State A) : State A :=
  match s.activeEra with
  | none => s
  | some activeEra =>
      { s with
        erasRewardPoints := Function.update s.erasRewardPoints activeEra.index
          (validatorsPoints.foldl (fun points v => points.award v.1 v.2)
            (s.erasRewardPoints activeEra.index)) }

/-! ## Slashing -/

/-- `Currency::slash`: burn up to `value`, free balance first. -/
def burn (stash : A) (value : ℕ) (s : State A) : State A :=
  let fromFree := min value (s.native.free stash)
  let fromReserved := min (value - fromFree) (s.native.reserved stash)
  { s with native :=
      { free := Function.update s.native.free stash (s.native.free stash - fromFree)
        reserved := Function.update s.native.reserved stash
          (s.native.reserved stash - fromReserved)
        issuance := s.native.issuance - (fromFree + fromReserved) } }

/-- `do_slash`. What becomes of the burned funds is the environment's business. -/
def doSlash (stash : A) (value : ℕ) (s : State A) : State A :=
  match s.bonded stash with
  | none => s
  | some controller =>
      match s.ledger controller with
      | none => s
      | some ledger =>
          if ledger.slashed value cfg.minimumBalance = 0 then s
          else
            updateLedger cfg controller (ledger.slash value cfg.minimumBalance)
              (burn stash (ledger.slashed value cfg.minimumBalance) s)

/-! ## Runs -/

inductive Call (A : Type)
  | bond (controller : A) (value : ℕ) (payee : RewardDestination A)
  | bondExtra (maxAdditional : ℕ)
  | unbond (value : ℕ)
  | withdrawUnbonded (numSlashingSpans : ℕ)
  | rebond (value : ℕ)
  | setController (controller : A)
  | setPayee (payee : RewardDestination A)
  | validate (prefs : ValidatorPrefs)
  | nominate (targets : List A)
  | chill
  | chillOther (controller : A)
  | kick (who : List A)
  | forceUnstake (stash : A) (numSlashingSpans : ℕ)
  | reapStash (stash : A) (numSlashingSpans : ℕ)
  | payoutStakers (validatorStash : A) (era : ℕ)
  | setHistoryDepth (newHistoryDepth : ℕ)
  | setStakingLimits (minNominatorBond minValidatorBond : ℕ)
      (maxNominatorCount maxValidatorCount : Option ℕ) (threshold : Option Percent)
  | forceNoEras
  | forceNewEra
  | forceNewEraAlways

def dispatch (origin : Origin A) : Call A → StakingM A Unit
  | .bond c n p => bond cfg origin c n p
  | .bondExtra n => bondExtra cfg origin n
  | .unbond n => unbond cfg origin n
  | .withdrawUnbonded n => withdrawUnbonded cfg origin n
  | .rebond n => rebond cfg origin n
  | .setController c => setController origin c
  | .setPayee p => setPayee origin p
  | .validate p => validate origin p
  | .nominate ts => nominate cfg origin ts
  | .chill => chill origin
  | .chillOther c => chillOther origin c
  | .kick who => kick origin who
  | .forceUnstake a n => forceUnstake origin a n
  | .reapStash a n => reapStash cfg origin a n
  | .payoutStakers a e => payoutStakers cfg origin a e
  | .setHistoryDepth n => setHistoryDepth origin n
  | .setStakingLimits n v nc vc t => setStakingLimits origin n v nc vc t
  | .forceNoEras => forceNoEras origin
  | .forceNewEra => forceNewEra origin
  | .forceNewEraAlways => forceNewEraAlways origin

/-- One step of the chain, as far as staking sees it. The environment reports offences, which
show slashing spans and may chill the stash and force a new era, and moves the balances and
references of accounts. -/
inductive Act (A : Type)
  | call (origin : Origin A) (c : Call A)
  | genesisSessions (first second : Election A)
  | rotateSession (now : ℕ) (election : Election A)
  | onFinalize (now : ℕ)
  | rewardByIds (validatorsPoints : List (A × ℕ))
  | slash (stash : A) (value : ℕ)
  | offence (stash : A) (spans : SlashingSpans) (chills forces : Bool)
  | outside (native : Native A) (setter : Ledger Unit A) (system : References A)

/-- `ensure_new_era`. -/
def ensureNewEra (s : State A) : State A :=
  match s.forceEra with
  | .ForceAlways | .ForceNew => s
  | _ => { s with forceEra := .ForceNew }

/-- What an offence does to a stash besides the slashes it leads to. -/
def noteOffence (stash : A) (spans : SlashingSpans) (chills forces : Bool) (s : State A) :
    State A :=
  let s' := { s with slashingSpans := Function.update s.slashingSpans stash (some spans) }
  let s'' := if chills then chillStash stash s' else s'
  if forces then ensureNewEra s'' else s''

/-- The state after a step; a call that fails keeps what it wrote. -/
def step (s : State A) : Act A → State A
  | .call origin c => (dispatch cfg origin c).commit s
  | .genesisSessions first second => genesisSessions cfg first second s
  | .rotateSession now election => rotateSession cfg now election s
  | .onFinalize now => onFinalize now s
  | .rewardByIds points => rewardByIds points s
  | .slash stash value => doSlash cfg stash value s
  | .offence stash spans chills forces => noteOffence stash spans chills forces s
  | .outside native setter system =>
      { s with native := native, setter := setter, system := system }

/-- Nothing is bonded, no era is planned and no session has started. -/
structure Genesis (s : State A) : Prop where
  bonded : ∀ a, s.bonded a = none
  ledger : ∀ a, s.ledger a = none
  stakingLock : ∀ a, s.stakingLock a = none
  validators : s.validators = ∅
  nominators : s.nominators = ∅
  counterForValidators : s.counterForValidators = 0
  counterForNominators : s.counterForNominators = 0
  currentEra : s.currentEra = none
  activeEra : s.activeEra = none
  session : s.session = none
  erasStartSessionIndex : ∀ e, s.erasStartSessionIndex e = none
  erasValidatorReward : ∀ e, s.erasValidatorReward e = none
  eraPayouts : s.eraPayouts = []

/-! ## A small chain -/

/-- A chain with sessions that are eras, under a reading of the undeclared amount. -/
def sampleConfig (halvingInterval initialIssuance : ℕ)
    (nativeIssuancePayout : ℕ → ℕ → ℕ → ℕ) : Config ℕ where
  minimumBalance := 1
  maxNominations := 16
  sessionsPerEra := 1
  bondingDuration := 3
  maxNominatorRewardedPerValidator := 64
  halvingInterval := halvingInterval
  initialIssuance := initialIssuance
  rewardRemainder := 0
  rewardCurve _ _ := 0
  nativeIssuancePayout := nativeIssuancePayout
  setLock _ n := some n
  depositIntoExistingAllowed _ _ _ := true
  depositCreatingAllowed _ _ _ := true
  setterRules := Ledger.Rules.permissive

/-- Everybody holds a million units of the native currency. -/
def sampleNative : Native ℕ where
  free _ := 1000000
  reserved _ := 0
  issuance := 1000000

/-- The empty state, to begin with. -/
def sampleGenesis : State ℕ where
  bonded _ := none
  ledger _ := none
  payee _ := .Staked
  validators := ∅
  counterForValidators := 0
  maxValidatorsCount := none
  minValidatorBond := 0
  nominators := ∅
  counterForNominators := 0
  maxNominatorsCount := none
  minNominatorBond := 0
  chillThreshold := none
  minimumValidatorCount := 1
  slashingSpans _ := none
  currentEra := none
  activeEra := none
  historyDepth := 84
  forceEra := .NotForcing
  erasStartSessionIndex _ := none
  erasStakersClipped _ _ := .default
  erasValidatorPrefs _ _ := .default
  erasValidatorReward _ := none
  erasRewardPoints _ := .default
  erasTotalStake _ := 0
  session := none
  native := sampleNative
  stakingLock _ := none
  setter := Ledger.empty
  system := References.provideAll
  eraPayouts := []

theorem sampleGenesis_genesis : Genesis sampleGenesis where
  bonded _ := rfl
  ledger _ := rfl
  stakingLock _ := rfl
  validators := rfl
  nominators := rfl
  counterForValidators := rfl
  counterForNominators := rfl
  currentEra := rfl
  activeEra := rfl
  session := rfl
  erasStartSessionIndex _ := rfl
  erasValidatorReward _ := rfl
  eraPayouts := rfl

/-- The election of validator 1 with a stake of a thousand units. -/
def sampleElection : Election ℕ :=
  some [(1, { voters := [(1, 1000)], fits := by decide })]

end Setheum.Staking
