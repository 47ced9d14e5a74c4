import Setheum.Lib.Dispatch
import Setheum.Lib.Ledger
import Setheum.Lib.References
import Setheum.Lib.Run
import Setheum.Lib.Shares
import Setheum.Lib.StorageMap
import Setheum.Staking.Ledger

/-!
# Staking

Stashes bond their native currency under a controller and validate or nominate with it. Sessions
group into eras; at the end of an era its payout in the Setter and in the native currency is
recorded, and anybody may have it paid out to the stakers behind one validator.

The native currency is `Native` with one staking lock for each account; how the currency's
`set_lock` treats an existing lock, and on what grounds a deposit is refused, are parameters of
`Config`. So are the election, whose outcome comes with a session, and the reward curve.
-/

set_option autoImplicit false

namespace Setheum.Staking

open StorageMap

inductive Error
  | NotController
  | NotStash
  | AlreadyBonded
  | AlreadyPaired
  | EmptyTargets
  | InsufficientBond
  | NoMoreChunks
  | NoUnlockChunk
  | FundedTarget
  | InvalidEraToReward
  | AlreadyClaimed
  | IncorrectSlashingSpans
  | BadState
  | TooManyTargets
  | BadTarget
  | CannotChillOther
  | TooManyNominators
  | TooManyValidators
  deriving DecidableEq, Repr

inductive DispatchError
  | badOrigin
  | module (e : Error)
  deriving DecidableEq, Repr

abbrev Perbill := PerThing 1000000000
abbrev Percent := PerThing 100

inductive RewardDestination (A : Type)
  | Staked
  | Stash
  | Controller
  | Account (account : A)
  | None

structure ValidatorPrefs where
  commission : Perbill
  blocked : Bool

def ValidatorPrefs.default : ValidatorPrefs := ⟨PerThing.zero, false⟩

structure ActiveEraInfo where
  index : ℕ
  start : Option ℕ
  deriving DecidableEq, Repr

inductive Forcing
  | NotForcing
  | ForceNew
  | ForceNone
  | ForceAlways
  deriving DecidableEq, Repr

/-- The slashing spans of a stash; `prior` are the lengths of the earlier ones. -/
structure SlashingSpans where
  spanIndex : ℕ
  lastStart : ℕ
  lastNonzeroSlash : ℕ
  prior : List ℕ
  deriving DecidableEq, Repr

/-- The number of spans that `iter` yields: the ongoing one and all prior ones. -/
def SlashingSpans.count (spans : SlashingSpans) : ℕ := spans.prior.length + 1

/-! ## Exposures and reward points -/

structure IndividualExposure (A : Type) where
  who : A
  value : ℕ

/-- The funds of a list of exposed nominators. -/
def exposedValue {A : Type} (others : List (IndividualExposure A)) : ℕ :=
  (others.map IndividualExposure.value).sum

/-- The stake behind a validator in an era. The validator and the nominators listed hold parts of
the total. -/
structure Exposure (A : Type) where
  total : ℕ
  own : ℕ
  others : List (IndividualExposure A)
  covered : own + exposedValue others ≤ total

variable {A : Type}

def Exposure.default : Exposure A := ⟨0, 0, [], Nat.le_refl 0⟩

/-- The support of an elected validator in currency units, as the election provider gives it: the
votes are parts of the total issuance. -/
structure Support (A : Type) where
  voters : List (A × ℕ)
  fits : (voters.map Prod.snd).sum ≤ Balance.maxValue

/-- Summing with `saturating_add`. -/
def saturatingSum (ns : List ℕ) : ℕ := ns.foldl Balance.saturatingAdd 0

theorem saturatingSum_eq {ns : List ℕ} (h : ns.sum ≤ Balance.maxValue) :
    saturatingSum ns = ns.sum := by
  have hfold : ∀ (ns : List ℕ) (n : ℕ), n + ns.sum ≤ Balance.maxValue →
      ns.foldl Balance.saturatingAdd n = n + ns.sum := by
    intro ns
    induction ns with
    | nil =>
        intro n _
        simp
    | cons m ns ih =>
        intro n hn
        rw [List.sum_cons] at hn
        rw [List.foldl_cons, Balance.saturatingAdd_eq (by omega), ih (n + m) (by omega),
          List.sum_cons]
        omega
  unfold saturatingSum
  rw [hfold ns 0 (by omega), Nat.zero_add]

section Exposures

variable [DecidableEq A]

/-- The nominators among the voters of a validator. -/
def nominatorsAmong (validator : A) (voters : List (A × ℕ)) : List (IndividualExposure A) :=
  (voters.filter fun v => v.1 ≠ validator).map fun v => ⟨v.1, v.2⟩

/-- The validator's own votes. -/
def ownVotes (validator : A) (voters : List (A × ℕ)) : List ℕ :=
  (voters.filter fun v => v.1 = validator).map Prod.snd

theorem ownVotes_add_nominators (validator : A) (voters : List (A × ℕ)) :
    (ownVotes validator voters).sum + exposedValue (nominatorsAmong validator voters)
      = (voters.map Prod.snd).sum := by
  induction voters with
  | nil => rfl
  | cons v voters ih =>
      by_cases hv : v.1 = validator
      · simp [ownVotes, nominatorsAmong, exposedValue, hv] at ih ⊢
        omega
      · simp [ownVotes, nominatorsAmong, exposedValue, hv] at ih ⊢
        omega

/-- One entry of `collect_exposures`. -/
def collectExposure (validator : A) (support : Support A) : Exposure A where
  total := saturatingSum (support.voters.map Prod.snd)
  own := saturatingSum (ownVotes validator support.voters)
  others := nominatorsAmong validator support.voters
  covered := by
    have hsplit := ownVotes_add_nominators validator support.voters
    have hfits := support.fits
    rw [saturatingSum_eq hfits, saturatingSum_eq (by omega), hsplit]

end Exposures

/-- Keep only the biggest nominators. -/
def Exposure.clip (maxNominators : ℕ) (e : Exposure A) : Exposure A :=
  if maxNominators < e.others.length then
    { total := e.total
      own := e.own
      others := (e.others.mergeSort fun a b => decide (b.value ≤ a.value)).take maxNominators
      covered := by
        have hperm := List.mergeSort_perm e.others fun a b => decide (b.value ≤ a.value)
        have hsum := (hperm.map IndividualExposure.value).sum_eq
        have hsub := (List.take_sublist maxNominators
          (e.others.mergeSort fun a b => decide (b.value ≤ a.value))).map
            IndividualExposure.value
        have hle := hsub.sum_le_sum fun n _ => Nat.zero_le n
        have hcovered := e.covered
        unfold exposedValue at hcovered ⊢
        omega }
  else e

/-- The reward points of an era and their total. -/
structure EraRewardPoints (A : Type) where
  individual : Map A ℕ
  total : ℕ
  total_eq : total = sumBy (fun _ points => points) individual

def EraRewardPoints.default : EraRewardPoints A := ⟨∅, 0, rfl⟩

/-- Add to the points of one validator. -/
def EraRewardPoints.award [DecidableEq A] (r : EraRewardPoints A) (validator : A) (points : ℕ) :
    EraRewardPoints A where
  individual := r.individual.insert validator (get 0 r.individual validator + points)
  total := r.total + points
  total_eq := by
    have hinsert := sumBy_insert_add (fun (_ : A) (n : ℕ) => n) r.individual validator
      (get 0 r.individual validator + points)
    rw [weightAt_eq_get (fun (_ : A) (n : ℕ) => n) r.individual validator (d := 0) rfl]
      at hinsert
    have htotal := r.total_eq
    omega

/-! ## State and configuration -/

/-- The balances of the native currency. -/
structure Native (A : Type) where
  free : A → ℕ
  reserved : A → ℕ
  issuance : ℕ

/-- The `EraPayout` event: the validators' payouts in Setter and in the native currency, and the
rest. -/
structure EraPayout where
  era : ℕ
  setterPayout : ℕ
  nativePayout : ℕ
  nativeRest : ℕ
  deriving DecidableEq, Repr

/-- The storages of the pallet, the session index of the session pallet, the two currencies and
the staking locks. `eraPayouts` are the `EraPayout` events so far, the latest first. -/
structure State (A : Type) where
  bonded : A → Option A
  ledger : A → Option (StakingLedger A)
  payee : A → RewardDestination A
  validators : Map A ValidatorPrefs
  counterForValidators : ℕ
  maxValidatorsCount : Option ℕ
  minValidatorBond : ℕ
  nominators : Map A (List A)
  counterForNominators : ℕ
  maxNominatorsCount : Option ℕ
  minNominatorBond : ℕ
  chillThreshold : Option Percent
  minimumValidatorCount : ℕ
  slashingSpans : A → Option SlashingSpans
  currentEra : Option ℕ
  activeEra : Option ActiveEraInfo
  historyDepth : ℕ
  forceEra : Forcing
  erasStartSessionIndex : ℕ → Option ℕ
  erasStakersClipped : ℕ → A → Exposure A
  erasValidatorPrefs : ℕ → A → ValidatorPrefs
  erasValidatorReward : ℕ → Option (ℕ × ℕ)
  erasRewardPoints : ℕ → EraRewardPoints A
  erasTotalStake : ℕ → ℕ
  session : Option ℕ
  native : Native A
  stakingLock : A → Option ℕ
  setter : Ledger Unit A
  system : References A
  eraPayouts : List EraPayout

structure Config (A : Type) where
  minimumBalance : ℕ
  maxNominations : ℕ
  sessionsPerEra : ℕ
  bondingDuration : ℕ
  maxNominatorRewardedPerValidator : ℕ
  halvingInterval : ℕ
  initialIssuance : ℕ
  rewardRemainder : A
  /-- `calculate_for_fraction_times_denominator` of the reward curve. -/
  rewardCurve : ℕ → ℕ → ℕ
  /-- What `era_payout` names `native_issuance_payout` without declaring it, as a function of the
  stake, the issuance and the duration that are in its scope. -/
  nativeIssuancePayout : ℕ → ℕ → ℕ → ℕ
  /-- The lock of an account after `set_lock` to an amount. -/
  setLock : Option ℕ → ℕ → Option ℕ
  depositIntoExistingAllowed : Native A → A → ℕ → Bool
  depositCreatingAllowed : Native A → A → ℕ → Bool
  setterRules : Ledger.Rules Unit A

inductive Origin (A : Type)
  | root
  | signed (who : A)

abbrev StakingM (A : Type) := Dispatch DispatchError (State A)

variable [DecidableEq A] (cfg : Config A)

def ensureSigned (origin : Origin A) : StakingM A A :=
  match origin with
  | .signed who => pure who
  | .root => throw .badOrigin

def ensureRoot (origin : Origin A) : StakingM A Unit :=
  match origin with
  | .root => pure ()
  | .signed _ => throw .badOrigin

/-! ## Ledgers, roles and locks -/

/-- Store a ledger under its controller and update the lock of the stash. -/
def updateLedger (controller : A) (ledger : StakingLedger A) (s : State A) : State A :=
  { s with
    stakingLock := Function.update s.stakingLock ledger.stash
      (cfg.setLock (s.stakingLock ledger.stash) ledger.total)
    ledger := Function.update s.ledger controller (some ledger) }

def removeLock (stash : A) (s : State A) : State A :=
  { s with stakingLock := Function.update s.stakingLock stash none }

def doAddValidator (who : A) (prefs : ValidatorPrefs) (s : State A) : State A :=
  { s with
    counterForValidators :=
      if who ∈ s.validators then s.counterForValidators else s.counterForValidators + 1
    validators := s.validators.insert who prefs }

def doRemoveValidator (who : A) (s : State A) : State A :=
  if who ∈ s.validators then
    { s with
      validators := s.validators.erase who
      counterForValidators := s.counterForValidators - 1 }
  else s

def doAddNominator (who : A) (targets : List A) (s : State A) : State A :=
  { s with
    counterForNominators :=
      if who ∈ s.nominators then s.counterForNominators else s.counterForNominators + 1
    nominators := s.nominators.insert who targets }

def doRemoveNominator (who : A) (s : State A) : State A :=
  if who ∈ s.nominators then
    { s with
      nominators := s.nominators.erase who
      counterForNominators := s.counterForNominators - 1 }
  else s

def chillStash (stash : A) (s : State A) : State A :=
  doRemoveNominator stash (doRemoveValidator stash s)

/-- The least active bond for the role of a stash. -/
def minActiveBond (s : State A) (stash : A) : ℕ :=
  if stash ∈ s.nominators then s.minNominatorBond
  else if stash ∈ s.validators then s.minValidatorBond
  else 0

/-- `slashing::clear_stash_metadata`. -/
def clearStashMetadata (stash : A) (numSlashingSpans : ℕ) : StakingM A Unit := do
  let s ← get
  match s.slashingSpans stash with
  | none => pure ()
  | some spans =>
      Dispatch.ensure (spans.count ≤ numSlashingSpans) (.module .IncorrectSlashingSpans)
      modify fun t => { t with slashingSpans := Function.update t.slashingSpans stash none }

/-- What `kill_stash` removes once the slashing metadata is cleared. -/
def forgetStash (stash controller : A) (s : State A) : State A :=
  let s' := chillStash stash
    { s with
      bonded := Function.update s.bonded stash none
      ledger := Function.update s.ledger controller none
      payee := Function.update s.payee stash .Staked }
  { s' with system := s'.system.decConsumers stash }

def killStash (stash : A) (numSlashingSpans : ℕ) : StakingM A Unit := do
  let s ← get
  let controller ← Dispatch.okOr (s.bonded stash) (.module .NotStash)
  clearStashMetadata stash numSlashingSpans
  modify (forgetStash stash controller)

/-! ## Bonding -/

def bond (origin : Origin A) (controller : A) (value : ℕ) (payee : RewardDestination A) :
    StakingM A Unit := do
  let stash ← ensureSigned origin
  let s ← get
  Dispatch.ensure (s.bonded stash = none) (.module .AlreadyBonded)
  Dispatch.ensure ((s.ledger controller).isNone) (.module .AlreadyPaired)
  Dispatch.ensure (cfg.minimumBalance ≤ value) (.module .InsufficientBond)
  let system ← Dispatch.okOr (s.system.incConsumers stash) (.module .BadState)
  modify fun t => { t with
    system := system
    bonded := Function.update t.bonded stash (some controller)
    payee := Function.update t.payee stash payee }
  let lastRewardEra := s.currentEra.getD 0 - s.historyDepth
  modify (updateLedger cfg controller
    { stash := stash
      total := min value (s.native.free stash)
      active := min value (s.native.free stash)
      unlocking := []
      claimedRewards := List.range' lastRewardEra (s.currentEra.getD 0 - lastRewardEra) })

/-- A ledger with `n` more units at stake. -/
def StakingLedger.stake (l : StakingLedger A) (n : ℕ) : StakingLedger A :=
  { l with total := l.total + n, active := l.active + n }

def bondExtra (origin : Origin A) (maxAdditional : ℕ) : StakingM A Unit := do
  let stash ← ensureSigned origin
  let s ← get
  let controller ← Dispatch.okOr (s.bonded stash) (.module .NotStash)
  let ledger ← Dispatch.okOr (s.ledger controller) (.module .NotController)
  Dispatch.when (ledger.total ≤ s.native.free stash) do
    let extra := min (s.native.free stash - ledger.total) maxAdditional
    Dispatch.ensure (cfg.minimumBalance ≤ (ledger.stake extra).active)
      (.module .InsufficientBond)
    modify (updateLedger cfg controller (ledger.stake extra))

/-- The value that leaves the active stake: a remainder below the minimum balance goes too. -/
def unbondValue (minimumBalance active value : ℕ) : ℕ :=
  if active - min value active < minimumBalance then active else min value active

/-- A ledger with part of its active stake unlocking at an era. -/
def StakingLedger.unbond (l : StakingLedger A) (value era : ℕ) : StakingLedger A :=
  { l with
    active := l.active - value
    unlocking := l.unlocking ++ [{ value := value, era := era }] }

def unbond (origin : Origin A) (value : ℕ) : StakingM A Unit := do
  let controller ← ensureSigned origin
  let s ← get
  let ledger ← Dispatch.okOr (s.ledger controller) (.module .NotController)
  Dispatch.ensure (ledger.unlocking.length < maxUnlockingChunks) (.module .NoMoreChunks)
  Dispatch.when (min value ledger.active ≠ 0) do
    let value := unbondValue cfg.minimumBalance ledger.active value
    Dispatch.ensure (minActiveBond s ledger.stash ≤ ledger.active - value)
      (.module .InsufficientBond)
    modify (updateLedger cfg controller
      (ledger.unbond value (s.currentEra.getD 0 + cfg.bondingDuration)))

/-- The ledger that `withdraw_unbonded` leaves. -/
def StakingLedger.withdraw (l : StakingLedger A) (currentEra : Option ℕ) : StakingLedger A :=
  match currentEra with
  | some era => l.consolidateUnlocked era
  | none => l

def withdrawUnbonded (origin : Origin A) (numSlashingSpans : ℕ) : StakingM A Unit := do
  let controller ← ensureSigned origin
  let s ← get
  let ledger ← Dispatch.okOr (s.ledger controller) (.module .NotController)
  if (ledger.withdraw s.currentEra).unlocking = []
      ∧ (ledger.withdraw s.currentEra).active < cfg.minimumBalance then
    killStash ledger.stash numSlashingSpans
    modify (removeLock ledger.stash)
  else
    modify (updateLedger cfg controller (ledger.withdraw s.currentEra))

def rebond (origin : Origin A) (value : ℕ) : StakingM A Unit := do
  let controller ← ensureSigned origin
  let s ← get
  let ledger ← Dispatch.okOr (s.ledger controller) (.module .NotController)
  Dispatch.ensure (ledger.unlocking ≠ []) (.module .NoUnlockChunk)
  Dispatch.ensure (cfg.minimumBalance ≤ (ledger.rebond value).active) (.module .InsufficientBond)
  modify (updateLedger cfg controller (ledger.rebond value))

def setController (origin : Origin A) (controller : A) : StakingM A Unit := do
  let stash ← ensureSigned origin
  let s ← get
  let oldController ← Dispatch.okOr (s.bonded stash) (.module .NotStash)
  Dispatch.ensure ((s.ledger controller).isNone) (.module .AlreadyPaired)
  Dispatch.when (controller ≠ oldController) do
    modify fun t => { t with bonded := Function.update t.bonded stash (some controller) }
    match s.ledger oldController with
    | some l =>
        modify fun t => { t with
          ledger := Function.update (Function.update t.ledger oldController none) controller
            (some l) }
    | none => pure ()

def setPayee (origin : Origin A) (payee : RewardDestination A) : StakingM A Unit := do
  let controller ← ensureSigned origin
  let s ← get
  let ledger ← Dispatch.okOr (s.ledger controller) (.module .NotController)
  modify fun t => { t with payee := Function.update t.payee ledger.stash payee }

def forceUnstake (origin : Origin A) (stash : A) (numSlashingSpans : ℕ) : StakingM A Unit := do
  ensureRoot origin
  killStash stash numSlashingSpans
  modify (removeLock stash)

def reapStash (_origin : Origin A) (stash : A) (numSlashingSpans : ℕ) : StakingM A Unit := do
  let s ← get
  Dispatch.ensure (s.native.free stash + s.native.reserved stash = cfg.minimumBalance)
    (.module .FundedTarget)
  killStash stash numSlashingSpans
  modify (removeLock stash)

/-! ## Validating and nominating -/

/-- The preferences of a validator, the default ones if it has none. -/
def State.validatorPrefs (s : State A) (who : A) : ValidatorPrefs :=
  get .default s.validators who

def validate (origin : Origin A) (prefs : ValidatorPrefs) : StakingM A Unit := do
  let controller ← ensureSigned origin
  let s ← get
  let ledger ← Dispatch.okOr (s.ledger controller) (.module .NotController)
  Dispatch.ensure (s.minValidatorBond ≤ ledger.active) (.module .InsufficientBond)
  Dispatch.ensure (ledger.stash ∈ s.validators ∨
      ∀ maxValidators ∈ s.maxValidatorsCount, s.counterForValidators < maxValidators)
    (.module .TooManyValidators)
  modify fun t => doAddValidator ledger.stash prefs (doRemoveNominator ledger.stash t)

def nominate (origin : Origin A) (targets : List A) : StakingM A Unit := do
  let controller ← ensureSigned origin
  let s ← get
  let ledger ← Dispatch.okOr (s.ledger controller) (.module .NotController)
  Dispatch.ensure (s.minNominatorBond ≤ ledger.active) (.module .InsufficientBond)
  Dispatch.ensure (ledger.stash ∈ s.nominators ∨
      ∀ maxNominators ∈ s.maxNominatorsCount, s.counterForNominators < maxNominators)
    (.module .TooManyNominators)
  Dispatch.ensure (targets ≠ []) (.module .EmptyTargets)
  Dispatch.ensure (targets.length ≤ cfg.maxNominations) (.module .TooManyTargets)
  Dispatch.ensure (∀ n ∈ targets,
      n ∈ get [] s.nominators ledger.stash ∨ (s.validatorPrefs n).blocked = false)
    (.module .BadTarget)
  modify fun t => doAddNominator ledger.stash targets (doRemoveValidator ledger.stash t)

def chill (origin : Origin A) : StakingM A Unit := do
  let controller ← ensureSigned origin
  let s ← get
  let ledger ← Dispatch.okOr (s.ledger controller) (.module .NotController)
  modify (chillStash ledger.stash)

/-- The checks of `chill_other` on a stash that is not chilled by its own controller. -/
def ensureChillable (s : State A) (ledger : StakingLedger A) : StakingM A Unit := do
  let threshold ← Dispatch.okOr s.chillThreshold (.module .CannotChillOther)
  if ledger.stash ∈ s.nominators then
    let maxNominatorCount ← Dispatch.okOr s.maxNominatorsCount (.module .CannotChillOther)
    Dispatch.ensure (threshold.mul maxNominatorCount < s.counterForNominators)
      (.module .CannotChillOther)
  else if ledger.stash ∈ s.validators then
    let maxValidatorCount ← Dispatch.okOr s.maxValidatorsCount (.module .CannotChillOther)
    Dispatch.ensure (threshold.mul maxValidatorCount < s.counterForValidators)
      (.module .CannotChillOther)
  Dispatch.ensure (ledger.active < minActiveBond s ledger.stash) (.module .CannotChillOther)

def chillOther (origin : Origin A) (controller : A) : StakingM A Unit := do
  let caller ← ensureSigned origin
  let s ← get
  let ledger ← Dispatch.okOr (s.ledger controller) (.module .NotController)
  Dispatch.when (caller ≠ controller) (ensureChillable s ledger)
  modify (chillStash ledger.stash)

/-- `swap_remove` of the first occurrence of an element. -/
def swapRemove (x : A) (l : List A) : List A :=
  if x ∈ l then (l.set (l.idxOf x) (l.getLastD x)).dropLast else l

def kick (origin : Origin A) (who : List A) : StakingM A Unit := do
  let controller ← ensureSigned origin
  let s ← get
  let ledger ← Dispatch.okOr (s.ledger controller) (.module .NotController)
  modify fun t => { t with
    nominators := who.foldl (fun nominators nomStash =>
      match nominators.lookup nomStash with
      | some targets => nominators.insert nomStash (swapRemove ledger.stash targets)
      | none => nominators) t.nominators }

def setStakingLimits (origin : Origin A) (minNominatorBond minValidatorBond : ℕ)
    (maxNominatorCount maxValidatorCount : Option ℕ) (threshold : Option Percent) :
    StakingM A Unit := do
  ensureRoot origin
  modify fun t => { t with
    minNominatorBond := minNominatorBond
    minValidatorBond := minValidatorBond
    maxNominatorsCount := maxNominatorCount
    maxValidatorsCount := maxValidatorCount
    chillThreshold := threshold }

end Setheum.Staking
