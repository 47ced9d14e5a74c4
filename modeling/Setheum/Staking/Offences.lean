import Setheum.Lib.Checked
import Setheum.Lib.DelayedQueue
import Setheum.Staking.Slashing

/-!
# From a reported offence to the funds that are slashed

A report of offences finds the era of its session, computes a slash for each offender and puts it
off for `slashDeferDuration` eras, or applies it at once if that is zero. The start of an era
applies the slashes whose time has come, unless they were cancelled: it takes the funds from the
stashes, rewards the reporters out of them and leaves the rest to the handler of slashes.

`reported`, `applied` and `cancelled` are a history that the functions only add to. The sessions
and the calls of the staking pallet are those of its model; a call that removes the spans of a
stash removes the records of these spans as well.
-/

set_option autoImplicit false

namespace Setheum.Staking

open StorageMap Checked

/-! ## State and configuration -/

structure OffenceConfig (A : Type) extends Config A where
  slashDeferDuration : ℕ
  /-- The account that the handler of slashes resolves them to. -/
  slash : A

/-- A slash that is to be applied, with those who reported the offence. -/
structure PendingSlash (A : Type) extends UnappliedSlash A where
  reporters : List A

/-- An offender and who reported it; `disabled` is what the session pallet answers to
`disable_validator`. -/
structure OffenceDetails (A : Type) where
  stash : A
  exposure : Exposure A
  reporters : List A
  disabled : Bool

structure OffenceState (A : Type) where
  slashing : SlashState A
  /-- The eras that are still bonded, each with its first session. -/
  bondedEras : List (ℕ × ℕ)
  unappliedSlashes : ℕ → List (PendingSlash A)
  earliestUnappliedSlash : Option ℕ
  invulnerables : List A
  slashRewardFraction : Perbill
  reported : List (ℕ × PendingSlash A)
  /-- With the era of the report and the one the slash was applied in. -/
  applied : List (ℕ × ℕ × PendingSlash A)
  cancelled : List (ℕ × PendingSlash A)

variable {A : Type} [DecidableEq A]

namespace OffenceState

/-- What the staking pallet keeps otherwise. -/
def staking (s : OffenceState A) : State A := s.slashing.staking

def onStaking (s : OffenceState A) (f : State A → State A) : OffenceState A :=
  { s with slashing := { s.slashing with staking := f s.slashing.staking } }

end OffenceState

/-! ## Applying a slash -/

section Apply

variable (cfg : OffenceConfig A)

/-- What slashing has come to: the reward for the reporters and the imbalance. -/
structure Collected where
  rewardPayout : ℕ
  imbalance : ℕ

/-- What `Currency::slash` takes from a stash. -/
def taken (stash : A) (value : ℕ) (s : State A) : ℕ :=
  let fromFree := min value (s.native.free stash)
  fromFree + min (value - fromFree) (s.native.reserved stash)

/-- `do_slash`, with what it adds to the imbalance and takes from the reward for funds that were
missing. -/
def collectSlash (c : Collected × State A) (x : A × ℕ) : Collected × State A :=
  let (stash, value) := x
  let (collected, s) := c
  match s.bonded stash with
  | none => c
  | some controller =>
      match s.ledger controller with
      | none => c
      | some ledger =>
          let value := ledger.slashed value cfg.minimumBalance
          if value = 0 then c
          else
            (⟨collected.rewardPayout - (value - taken stash value s),
                collected.imbalance + taken stash value s⟩,
              updateLedger cfg.toConfig controller (ledger.slash x.2 cfg.minimumBalance)
                (burn stash value s))

/-- The handler of slashes. -/
def onUnbalanced (amount : ℕ) (s : State A) : State A := mint true cfg.slash amount s

/-- Reward the reporters out of the slashed funds, each with the same share. -/
def payReporters (collected : Collected) (reporters : List A) (s : State A) : State A :=
  if collected.rewardPayout = 0 ∨ reporters = [] then onUnbalanced cfg collected.imbalance s
  else
    let rewardPayout := min collected.rewardPayout collected.imbalance
    let valueSlashed := collected.imbalance - rewardPayout
    let perReporter := rewardPayout / reporters.length
    let rest := rewardPayout - reporters.length * perReporter
    onUnbalanced cfg (valueSlashed + rest)
      (reporters.foldl (fun t reporter => depositCreating cfg.toConfig reporter perReporter t) s)

/-- The stashes that a slash takes funds from, the validator first. -/
def UnappliedSlash.targets (slash : UnappliedSlash A) : List (A × ℕ) :=
  (slash.validator, slash.own) :: slash.others

def applySlash (slash : PendingSlash A) (s : State A) : State A :=
  let (collected, s) := slash.targets.foldl (collectSlash cfg) (⟨slash.payout, 0⟩, s)
  payReporters cfg collected slash.reporters s

/-- Apply a slash of an era. -/
def applyOf (era now : ℕ) (s : OffenceState A) (slash : PendingSlash A) : OffenceState A :=
  { s.onStaking (applySlash cfg slash) with applied := s.applied ++ [(era, now, slash)] }

/-- Apply what is left of an era. -/
def applyEra (now : ℕ) (s : OffenceState A) (era : ℕ) : OffenceState A :=
  (s.unappliedSlashes era).foldl (applyOf cfg era now)
    { s with unappliedSlashes := Function.update s.unappliedSlashes era [] }

def applyUnappliedSlashes (activeEra : ℕ) (s : OffenceState A) : OffenceState A :=
  match s.earliestUnappliedSlash with
  | none => s
  | some earliest =>
      let keepFrom := activeEra - cfg.slashDeferDuration
      { (List.range' earliest (keepFrom - earliest)).foldl (applyEra cfg activeEra) s with
        earliestUnappliedSlash := some (max earliest keepFrom) }

end Apply

/-! ## Eras -/

section Eras

variable (cfg : OffenceConfig A)

/-- Remember an era that becomes active, and forget those that are no longer bonded. -/
def bondEra (activeEra startSession : ℕ) (s : OffenceState A) : OffenceState A :=
  let bonded := s.bondedEras ++ [(activeEra, startSession)]
  if cfg.bondingDuration < activeEra then
    let firstKept := activeEra - cfg.bondingDuration
    let pruned := bonded.takeWhile fun e => decide (e.1 < firstKept)
    { s with
      bondedEras := bonded.drop pruned.length
      slashing := pruned.foldl (fun t e => clearEraMetadata e.1 t) s.slashing }
  else { s with bondedEras := bonded }

/-- `start_era`. -/
def startEraOf (startSession : ℕ) (s : OffenceState A) : OffenceState A :=
  let activeEra := s.staking.nextActiveEra
  applyUnappliedSlashes cfg activeEra (bondEra cfg activeEra startSession (s.onStaking startEra))

/-- `start_session`. -/
def startSessionOf (startSession : ℕ) (s : OffenceState A) : OffenceState A :=
  match s.staking.erasStartSessionIndex s.staking.nextActiveEra with
  | some index => if index ≤ startSession then startEraOf cfg startSession s else s
  | none => s

def genesisSessionsOf (first second : Election A) (s : OffenceState A) : OffenceState A :=
  match s.staking.session with
  | some _ => s
  | none =>
      startSessionOf cfg 0 <| s.onStaking fun t =>
        newSession cfg.toConfig 1 second
          (newSession cfg.toConfig 0 first { t with session := some 0 })

def rotateSessionOf (now : ℕ) (election : Election A) (s : OffenceState A) : OffenceState A :=
  match s.staking.session with
  | none => s
  | some i =>
      (startSessionOf cfg (i + 1) (s.onStaking fun t =>
        endSession cfg.toConfig i now { t with session := some (i + 1) })).onStaking
          (newSession cfg.toConfig (i + 2) election)

end Eras

/-! ## Offences -/

section Report

variable (cfg : OffenceConfig A)

/-- The era of a session, if it is still bonded. -/
def slashEra (s : OffenceState A) (activeEra slashSession : ℕ) : Option ℕ :=
  let activeEraStartSessionIndex := (s.staking.erasStartSessionIndex activeEra).getD 0
  if activeEraStartSessionIndex ≤ slashSession then some activeEra
  else
    (s.bondedEras.reverse.find? fun e => decide (e.2 ≤ slashSession)).map Prod.fst

/-- Apply a slash, or put it off. -/
def settleSlash (activeEra : ℕ) (slash : PendingSlash A) (s : OffenceState A) : OffenceState A :=
  let s := { s with reported := s.reported ++ [(activeEra, slash)] }
  if cfg.slashDeferDuration = 0 then applyOf cfg activeEra activeEra s slash
  else
    { s with
      unappliedSlashes := Function.update s.unappliedSlashes activeEra
        (s.unappliedSlashes activeEra ++ [slash]) }

/-- One offender of a report. -/
def offend (slashEra activeEra : ℕ) (s : OffenceState A) (x : OffenceDetails A × Perbill) :
    OffenceState A :=
  let (details, slashFraction) := x
  if details.stash ∈ s.invulnerables then s
  else
    let params : SlashParams A :=
      { stash := details.stash
        slash := slashFraction
        exposure := details.exposure
        slashEra := slashEra
        windowStart := activeEra - cfg.bondingDuration
        now := activeEra
        rewardProportion := s.slashRewardFraction }
    let (unapplied, slashing) := computeSlash params details.disabled s.slashing
    match unapplied with
    | none => { s with slashing }
    | some unapplied =>
        settleSlash cfg activeEra ⟨unapplied, details.reporters⟩ { s with slashing }

def onOffence (offenders : List (OffenceDetails A)) (slashFraction : List Perbill)
    (slashSession : ℕ) (s : OffenceState A) : OffenceState A :=
  match s.staking.activeEra with
  | none => s
  | some activeEra =>
      match slashEra s activeEra.index slashSession with
      | none => s
      | some slashEra =>
          (offenders.zip slashFraction).foldl (offend cfg slashEra activeEra.index)
            { s with
              earliestUnappliedSlash :=
                some (s.earliestUnappliedSlash.getD activeEra.index) }

/-- `FilterHistoricalOffences`: whether a report is passed on. -/
def passesFilter (s : OffenceState A) (offenceSession : ℕ) : Bool :=
  s.bondedEras.head?.any fun e => decide (e.2 ≤ offenceSession)

end Report

/-! ## Cancelling -/

inductive CancelError
  | badOrigin
  | emptyTargets
  | notSortedAndUnique
  | invalidSlashIndex
  deriving DecidableEq, Repr

def isSortedAndUnique (list : List ℕ) : Bool := (list.zip list.tail).all fun w => decide (w.1 < w.2)

/-- `Vec::remove`. -/
def removeIndex {α : Type} (l : List α) (index : ℕ) : Checked CancelError (List α) :=
  if index < l.length then .ok (l.eraseIdx index) else panicked

/-- Remove the slashes at some indices; `removed` have been removed before. -/
def removeIndices {α : Type} : List ℕ → ℕ → List α → Checked CancelError (List α)
  | [], _, l => .ok l
  | index :: indices, removed, l => do
      if index < removed then panicked
      let l ← removeIndex l (index - removed)
      removeIndices indices (removed + 1) l

/-- `cancel_deferred_slash`; `authorized` says whether the origin may cancel. -/
def cancelDeferredSlash (authorized : Bool) (era : ℕ) (slashIndices : List ℕ)
    (s : OffenceState A) : Checked CancelError (OffenceState A) := do
  ensure (authorized = true) .badOrigin
  ensure (slashIndices ≠ []) .emptyTargets
  ensure (isSortedAndUnique slashIndices = true) .notSortedAndUnique
  let unapplied := s.unappliedSlashes era
  ensure (slashIndices.getLastD 0 < unapplied.length) .invalidSlashIndex
  let kept ← removeIndices slashIndices 0 unapplied
  return { s with
    unappliedSlashes := Function.update s.unappliedSlashes era kept
    cancelled := s.cancelled
      ++ (DelayedQueue.takeAt slashIndices unapplied).map fun slash => (era, slash) }

/-! ## Runs -/

/-- Whether a record belongs to spans that a step has removed. -/
def isCleared (before after : State A) (k : A × ℕ) : Bool :=
  (after.slashingSpans k.1).isNone &&
    (before.slashingSpans k.1).any fun spans => decide (k.2 ∈ spans.iter.map SlashingSpan.index)

/-- A call of the staking pallet. -/
def callOf (cfg : OffenceConfig A) (origin : Origin A) (c : Call A) (s : OffenceState A) :
    OffenceState A :=
  let after := (dispatch cfg.toConfig origin c).commit s.staking
  { s with
    slashing :=
      { s.slashing with
        staking := after
        spanSlash :=
          restrict (fun k => isCleared s.staking after k = false) s.slashing.spanSlash } }

inductive OffenceAct (A : Type)
  | call (origin : Origin A) (c : Call A)
  | genesisSessions (first second : Election A)
  | rotateSession (now : ℕ) (election : Election A)
  | onFinalize (now : ℕ)
  | rewardByIds (validatorsPoints : List (A × ℕ))
  | offence (offenders : List (OffenceDetails A)) (slashFraction : List Perbill)
      (slashSession : ℕ)
  | cancelDeferredSlash (authorized : Bool) (era : ℕ) (slashIndices : List ℕ)
  | setInvulnerables (invulnerables : List A)
  | outside (native : Native A) (setter : Ledger Unit A) (system : References A)

def offenceStep (cfg : OffenceConfig A) (s : OffenceState A) : OffenceAct A → OffenceState A
  | .call origin c => callOf cfg origin c s
  | .genesisSessions first second => genesisSessionsOf cfg first second s
  | .rotateSession now election => rotateSessionOf cfg now election s
  | .onFinalize now => s.onStaking (onFinalize now)
  | .rewardByIds points => s.onStaking (rewardByIds points)
  | .offence offenders slashFraction slashSession =>
      onOffence cfg offenders slashFraction slashSession s
  | .cancelDeferredSlash authorized era slashIndices =>
      match cancelDeferredSlash authorized era slashIndices s with
      | .ok s' => s'
      | .error _ => s
  | .setInvulnerables invulnerables => { s with invulnerables }
  | .outside native setter system =>
      s.onStaking fun t => { t with native := native, setter := setter, system := system }

/-- The chain starts, and no offence was reported. -/
structure OffenceGenesis (s : OffenceState A) : Prop where
  staking : Genesis s.staking
  slashing : NeverSlashed s.slashing
  bondedEras : s.bondedEras = []
  unappliedSlashes : ∀ era, s.unappliedSlashes era = []
  earliestUnappliedSlash : s.earliestUnappliedSlash = none
  reported : s.reported = []
  applied : s.applied = []
  cancelled : s.cancelled = []

/-! ## A small chain -/

/-- A chain that puts slashes off for an era. -/
def sampleOffenceConfig : OffenceConfig ℕ where
  toConfig := sampleConfig 1 0 fun _ _ _ => 0
  slashDeferDuration := 1
  slash := 0

theorem sampleRewardFraction_le : 100000000 ≤ 1000000000 := by decide

/-- A tenth of what is slashed is the reporters'. -/
def sampleOffenceGenesis : OffenceState ℕ where
  slashing := ⟨sampleGenesis, ∅, ∅, ∅, []⟩
  bondedEras := []
  unappliedSlashes _ := []
  earliestUnappliedSlash := none
  invulnerables := []
  slashRewardFraction := ⟨100000000, sampleRewardFraction_le⟩
  reported := []
  applied := []
  cancelled := []

theorem sampleOffenceGenesis_genesis : OffenceGenesis sampleOffenceGenesis where
  staking := sampleGenesis_genesis
  slashing := ⟨fun _ => rfl, rfl, rfl⟩
  bondedEras := rfl
  unappliedSlashes _ := rfl
  earliestUnappliedSlash := rfl
  reported := rfl
  applied := rfl
  cancelled := rfl

theorem sampleExposure_covered :
    1000 + exposedValue ([] : List (IndividualExposure ℕ)) ≤ 1000 := by
  decide

theorem sampleFraction_le : 500000000 ≤ 1000000000 := by decide

/-- Account 2 reports validator 1 for session 0. -/
def sampleOffenceReport : OffenceAct ℕ :=
  .offence [⟨1, ⟨1000, 1000, [], sampleExposure_covered⟩, [2], false⟩]
    [⟨500000000, sampleFraction_le⟩] 0

/-- The era of session 0 starts, in which an offence is reported. -/
def sampleFirstSession : List (OffenceAct ℕ) :=
  [.genesisSessions sampleElection none, .call (.signed 1) (.bond 3 1000 .Stash), sampleOffenceReport]

/-- Three more sessions start, each of them an era. -/
def sampleSessions : List (OffenceAct ℕ) :=
  [.rotateSession 1 sampleElection, .rotateSession 2 sampleElection,
    .rotateSession 3 sampleElection]

end Setheum.Staking
