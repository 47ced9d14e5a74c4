import Setheum.Staking.Eras

/-!
# What a staking call can do

Every call fails before its first write, so it either changes nothing or has one of the effects
listed in `Effect`. The proofs about runs go through this list and never unfold a call again.

* `dispatch_cases` — a call changes nothing or has an effect.
* `Effect.eras_eq` — only a change of the history depth touches what is kept about eras.
-/

set_option autoImplicit false

namespace Setheum.Staking

variable {A : Type} [DecidableEq A] {cfg : Config A}

/-- The ledger of a new stash. -/
def newLedger (s : State A) (stash : A) (value : ℕ) : StakingLedger A where
  stash := stash
  total := min value (s.native.free stash)
  active := min value (s.native.free stash)
  unlocking := []
  claimedRewards := List.range' s.lastKept (s.currentEra.getD 0 - s.lastKept)

/-- The rewrites of a ledger by its own calls. -/
inductive Rewrite (cfg : Config A) (s : State A) (l : StakingLedger A) : StakingLedger A → Prop
  | stake (n : ℕ) : Rewrite cfg s l (l.stake n)
  | unbond (value : ℕ) (hpos : 0 < value) (hvalue : value ≤ l.active)
      (hlength : l.unlocking.length < maxUnlockingChunks) :
      Rewrite cfg s l (l.unbond value (s.currentEra.getD 0 + cfg.bondingDuration))
  | rebond (value : ℕ) : Rewrite cfg s l (l.rebond value)

/-- The state after the calls that leave ledgers, locks and eras alone. -/
def withRoles (s : State A) (payee : A → RewardDestination A)
    (validators : StorageMap.Map A ValidatorPrefs) (counterForValidators : ℕ)
    (nominators : StorageMap.Map A (List A)) (counterForNominators : ℕ) : State A :=
  { s with payee, validators, counterForValidators, nominators, counterForNominators }

/-- The ledger after the reward of an era is claimed. -/
def claim (s : State A) (l : StakingLedger A) (era : ℕ) : StakingLedger A :=
  { l with claimedRewards := (retainedRewards s l).orderedInsert (· ≤ ·) era }

/-- The state after the ledger of a controller has noted a claim. -/
def noteClaim (s : State A) (controller : A) (l : StakingLedger A) (era : ℕ) : State A :=
  { s with ledger := Function.update s.ledger controller (some (claim s l era)) }

/-- The state after a payout of the stakers behind a validator. -/
def paidOut (cfg : Config A) (s : State A) (validatorStash controller : A)
    (l : StakingLedger A) (era : ℕ) (payout : ℕ × ℕ) : State A :=
  (paymentsOf s validatorStash l.stash era payout).foldl (makePayout cfg)
    (noteClaim s controller l era)

/-- The state after `set_controller`. -/
def moveLedger (s : State A) (stash oldController controller : A) : State A :=
  { s with
    bonded := Function.update s.bonded stash (some controller)
    ledger :=
      match s.ledger oldController with
      | some l => Function.update (Function.update s.ledger oldController none) controller (some l)
      | none => s.ledger }

/-- The ways in which a call changes the state. -/
inductive Effect (cfg : Config A) (origin : Origin A) (call : Call A) (s : State A) :
    State A → Prop
  | bond (stash controller : A) (value : ℕ) (payee : RewardDestination A)
      (system : References A) (hbonded : s.bonded stash = none)
      (hledger : s.ledger controller = none) :
      Effect cfg origin call s (updateLedger cfg controller (newLedger s stash value)
        { s with
          system := system
          bonded := Function.update s.bonded stash (some controller)
          payee := Function.update s.payee stash payee })
  | rewrite (controller : A) (l l' : StakingLedger A) (hl : s.ledger controller = some l)
      (hl' : Rewrite cfg s l l') : Effect cfg origin call s (updateLedger cfg controller l' s)
  | withdraw (controller : A) (l : StakingLedger A) (n : ℕ) (horigin : origin = .signed controller)
      (hcall : call = .withdrawUnbonded n) (hl : s.ledger controller = some l)
      (hkept : ¬ ((l.withdraw s.currentEra).unlocking = []
        ∧ (l.withdraw s.currentEra).active < cfg.minimumBalance)) :
      Effect cfg origin call s (updateLedger cfg controller (l.withdraw s.currentEra) s)
  | kill (stash controller : A) (spans : A → Option SlashingSpans)
      (hbonded : s.bonded stash = some controller) :
      Effect cfg origin call s
        (removeLock stash (forgetStash stash controller { s with slashingSpans := spans }))
  | setController (stash oldController controller : A)
      (hbonded : s.bonded stash = some oldController) (hledger : s.ledger controller = none)
      (hne : controller ≠ oldController) :
      Effect cfg origin call s (moveLedger s stash oldController controller)
  | roles (payee : A → RewardDestination A) (validators : StorageMap.Map A ValidatorPrefs)
      (counterForValidators : ℕ) (nominators : StorageMap.Map A (List A))
      (counterForNominators : ℕ) :
      Effect cfg origin call s (withRoles s payee validators counterForValidators nominators
        counterForNominators)
  | limits (minNominatorBond minValidatorBond : ℕ)
      (maxNominatorsCount maxValidatorsCount : Option ℕ) (chillThreshold : Option Percent) :
      Effect cfg origin call s { s with
        minNominatorBond, minValidatorBond, maxNominatorsCount, maxValidatorsCount,
        chillThreshold }
  | forcing (forceEra : Forcing) : Effect cfg origin call s { s with forceEra }
  | payout (validatorStash controller : A) (l : StakingLedger A) (era : ℕ) (payout : ℕ × ℕ)
      (hpayout : s.erasValidatorReward era = some payout)
      (hbonded : s.bonded validatorStash = some controller)
      (hledger : s.ledger controller = some l) (hclaim : era ∉ retainedRewards s l) :
      Effect cfg origin call s (paidOut cfg s validatorStash controller l era payout)
  | history (currentEra depth : ℕ) (hcurrent : s.currentEra = some currentEra) :
      Effect cfg origin call s
        { clearEras (List.range' s.lastKept (currentEra - depth - s.lastKept)) s with
          historyDepth := depth }

/-! ## Successful calls -/

section Inversion

open Dispatch

variable {s s' : State A} {origin : Origin A} {call : Call A} {u : Unit}

omit [DecidableEq A] in
theorem run_ensureSigned_ok {who : A} :
    (ensureSigned origin).run s = .ok who s' ↔ origin = .signed who ∧ s = s' := by
  cases origin with
  | root => simp [ensureSigned]
  | signed a => simp [ensureSigned]

omit [DecidableEq A] in
theorem run_ensureRoot_ok :
    (ensureRoot origin : StakingM A Unit).run s = .ok u s' ↔ origin = .root ∧ s = s' := by
  cases origin with
  | root => simp [ensureRoot]
  | signed a => simp [ensureRoot]

omit [DecidableEq A] in
/-- A signed call reads the state that it is made in. -/
theorem run_signed_ok {α : Type} {k : A → State A → StakingM A α} {a : α}
    (h : (ensureSigned origin >>= fun who => get >>= k who).run s = .ok a s') :
    ∃ who, origin = .signed who ∧ (k who s).run s = .ok a s' := by
  obtain ⟨who, s₁, hsigned, h⟩ := run_bind_ok.mp h
  obtain ⟨horigin, rfl⟩ := run_ensureSigned_ok.mp hsigned
  rw [run_get_bind] at h
  exact ⟨who, horigin, h⟩

omit [DecidableEq A] in
/-- The calls of a controller begin with its ledger. -/
theorem run_controller_ok {α : Type} {e : DispatchError} {a : α}
    {k : A → State A → StakingLedger A → StakingM A α}
    (h : (ensureSigned origin >>= fun who => get >>= fun t =>
      okOr (t.ledger who) e >>= k who t).run s = .ok a s') :
    ∃ who ledger, origin = .signed who ∧ s.ledger who = some ledger ∧
      (k who s ledger).run s = .ok a s' := by
  obtain ⟨who, horigin, h⟩ := run_signed_ok h
  obtain ⟨ledger, s₁, hread, h⟩ := run_bind_ok.mp h
  obtain ⟨hledger, rfl⟩ := run_okOr_ok.mp hread
  exact ⟨who, ledger, horigin, hledger, h⟩

theorem withRoles_chillStash (stash : A) (s : State A) :
    chillStash stash s = withRoles s s.payee (chillStash stash s).validators
      (chillStash stash s).counterForValidators (chillStash stash s).nominators
      (chillStash stash s).counterForNominators := by
  unfold chillStash doRemoveNominator doRemoveValidator withRoles
  split <;> split <;> rfl

theorem bond_effect {controller : A} {value : ℕ} {payee : RewardDestination A}
    (h : (bond cfg origin controller value payee).run s = .ok u s') :
    Effect cfg origin call s s' := by
  unfold bond at h
  obtain ⟨stash, -, h⟩ := run_signed_ok h
  obtain ⟨_, s₁, hb, h⟩ := run_bind_ok.mp h
  obtain ⟨hbonded, rfl⟩ := run_ensure_ok.mp hb
  obtain ⟨_, s₂, hl, h⟩ := run_bind_ok.mp h
  obtain ⟨hledger, rfl⟩ := run_ensure_ok.mp hl
  obtain ⟨_, s₃, hv, h⟩ := run_bind_ok.mp h
  obtain ⟨-, rfl⟩ := run_ensure_ok.mp hv
  obtain ⟨system, s₄, hs, h⟩ := run_bind_ok.mp h
  obtain ⟨-, rfl⟩ := run_okOr_ok.mp hs
  obtain ⟨_, s₅, hm, h⟩ := run_bind_ok.mp h
  obtain rfl := run_modify_ok.mp hm
  obtain rfl := run_modify_ok.mp h
  exact .bond stash controller value payee system hbonded (Option.isNone_iff_eq_none.mp hledger)

theorem bondExtra_effect {maxAdditional : ℕ}
    (h : (bondExtra cfg origin maxAdditional).run s = .ok u s') :
    s' = s ∨ Effect cfg origin call s s' := by
  unfold bondExtra at h
  obtain ⟨stash, -, h⟩ := run_signed_ok h
  obtain ⟨controller, s₁, hb, h⟩ := run_bind_ok.mp h
  obtain ⟨-, rfl⟩ := run_okOr_ok.mp hb
  obtain ⟨ledger, s₂, hl, h⟩ := run_bind_ok.mp h
  obtain ⟨hledger, rfl⟩ := run_okOr_ok.mp hl
  rcases run_when_ok.mp h with ⟨-, h⟩ | ⟨-, rfl⟩
  · obtain ⟨_, s₃, he, h⟩ := run_bind_ok.mp h
    obtain ⟨-, rfl⟩ := run_ensure_ok.mp he
    obtain rfl := run_modify_ok.mp h
    exact .inr (.rewrite controller ledger _ hledger (.stake _))
  · exact .inl rfl

theorem unbondValue_le {minimumBalance active value : ℕ} :
    unbondValue minimumBalance active value ≤ active := by
  unfold unbondValue
  split
  · exact Nat.le_refl active
  · exact Nat.min_le_right value active

theorem unbondValue_pos {minimumBalance active value : ℕ} (h : min value active ≠ 0) :
    0 < unbondValue minimumBalance active value := by
  unfold unbondValue
  split <;> omega

theorem unbond_effect {value : ℕ} (h : (unbond cfg origin value).run s = .ok u s') :
    s' = s ∨ Effect cfg origin call s s' := by
  unfold unbond at h
  obtain ⟨controller, ledger, -, hledger, h⟩ := run_controller_ok h
  obtain ⟨_, s₁, hc, h⟩ := run_bind_ok.mp h
  obtain ⟨hlength, rfl⟩ := run_ensure_ok.mp hc
  rcases run_when_ok.mp h with ⟨hsome, h⟩ | ⟨-, rfl⟩
  · obtain ⟨_, s₂, he, h⟩ := run_bind_ok.mp h
    obtain ⟨-, rfl⟩ := run_ensure_ok.mp he
    obtain rfl := run_modify_ok.mp h
    exact .inr (.rewrite controller ledger _ hledger
      (.unbond _ (unbondValue_pos hsome) unbondValue_le hlength))
  · exact .inl rfl

theorem rebond_effect {value : ℕ} (h : (rebond cfg origin value).run s = .ok u s') :
    Effect cfg origin call s s' := by
  unfold rebond at h
  obtain ⟨controller, ledger, -, hledger, h⟩ := run_controller_ok h
  obtain ⟨_, s₁, hc, h⟩ := run_bind_ok.mp h
  obtain ⟨-, rfl⟩ := run_ensure_ok.mp hc
  obtain ⟨_, s₂, he, h⟩ := run_bind_ok.mp h
  obtain ⟨-, rfl⟩ := run_ensure_ok.mp he
  obtain rfl := run_modify_ok.mp h
  exact .rewrite controller ledger _ hledger (.rebond value)

/-- Clearing the slashing metadata changes the spans only. -/
theorem clearStashMetadata_spec {stash : A} {n : ℕ}
    (h : (clearStashMetadata stash n).run s = .ok u s') :
    ∃ spans, s' = { s with slashingSpans := spans } := by
  unfold clearStashMetadata at h
  obtain ⟨t, s₁, hg, h⟩ := run_bind_ok.mp h
  obtain ⟨rfl, rfl⟩ := run_get_ok.mp hg
  split at h
  · obtain ⟨-, rfl⟩ := run_pure_ok.mp h
    exact ⟨_, rfl⟩
  · obtain ⟨_, s₂, he, h⟩ := run_bind_ok.mp h
    obtain ⟨-, rfl⟩ := run_ensure_ok.mp he
    obtain rfl := run_modify_ok.mp h
    exact ⟨_, rfl⟩

theorem killStash_spec {stash : A} {n : ℕ} (h : (killStash stash n).run s = .ok u s') :
    ∃ controller spans, s.bonded stash = some controller ∧
      s' = forgetStash stash controller { s with slashingSpans := spans } := by
  unfold killStash at h
  obtain ⟨t, s₁, hg, h⟩ := run_bind_ok.mp h
  obtain ⟨rfl, rfl⟩ := run_get_ok.mp hg
  obtain ⟨controller, s₂, hb, h⟩ := run_bind_ok.mp h
  obtain ⟨hbonded, rfl⟩ := run_okOr_ok.mp hb
  obtain ⟨_, s₃, hc, h⟩ := run_bind_ok.mp h
  obtain ⟨spans, rfl⟩ := clearStashMetadata_spec hc
  obtain rfl := run_modify_ok.mp h
  exact ⟨controller, spans, hbonded, rfl⟩

/-- Killing a stash and removing its lock. -/
theorem kill_effect {stash : A} {n : ℕ}
    (h : (do killStash stash n; modify (removeLock stash) : StakingM A Unit).run s = .ok u s') :
    Effect cfg origin call s s' := by
  obtain ⟨_, s₁, hk, h⟩ := run_bind_ok.mp h
  obtain ⟨controller, spans, hbonded, rfl⟩ := killStash_spec hk
  obtain rfl := run_modify_ok.mp h
  exact .kill stash controller spans hbonded

theorem withdrawUnbonded_effect {n : ℕ}
    (h : (withdrawUnbonded cfg origin n).run s = .ok u s') :
    Effect cfg origin (.withdrawUnbonded n) s s' := by
  unfold withdrawUnbonded at h
  obtain ⟨controller, ledger, horigin, hledger, h⟩ := run_controller_ok h
  split at h
  · exact kill_effect h
  · rename_i hkept
    obtain rfl := run_modify_ok.mp h
    exact .withdraw controller ledger n horigin rfl hledger hkept

theorem forceUnstake_effect {stash : A} {n : ℕ}
    (h : (forceUnstake origin stash n).run s = .ok u s') : Effect cfg origin call s s' := by
  unfold forceUnstake at h
  obtain ⟨_, s₁, ho, h⟩ := run_bind_ok.mp h
  obtain ⟨-, rfl⟩ := run_ensureRoot_ok.mp ho
  exact kill_effect h

theorem reapStash_effect {stash : A} {n : ℕ}
    (h : (reapStash cfg origin stash n).run s = .ok u s') : Effect cfg origin call s s' := by
  unfold reapStash at h
  obtain ⟨t, s₁, hg, h⟩ := run_bind_ok.mp h
  obtain ⟨rfl, rfl⟩ := run_get_ok.mp hg
  obtain ⟨_, s₂, he, h⟩ := run_bind_ok.mp h
  obtain ⟨-, rfl⟩ := run_ensure_ok.mp he
  exact kill_effect h

theorem setController_effect {controller : A}
    (h : (setController origin controller).run s = .ok u s') :
    s' = s ∨ Effect cfg origin call s s' := by
  unfold setController at h
  obtain ⟨stash, -, h⟩ := run_signed_ok h
  obtain ⟨oldController, s₁, hb, h⟩ := run_bind_ok.mp h
  obtain ⟨hbonded, rfl⟩ := run_okOr_ok.mp hb
  obtain ⟨_, s₂, hl, h⟩ := run_bind_ok.mp h
  obtain ⟨hledger, rfl⟩ := run_ensure_ok.mp hl
  rcases run_when_ok.mp h with ⟨hne, h⟩ | ⟨-, rfl⟩
  · have hmove := @Effect.setController A _ cfg origin call s stash oldController controller hbonded
      (Option.isNone_iff_eq_none.mp hledger) hne
    obtain ⟨_, s₃, hm, h⟩ := run_bind_ok.mp h
    obtain rfl := run_modify_ok.mp hm
    unfold moveLedger at hmove
    split at h
    · rename_i l hold
      obtain rfl := run_modify_ok.mp h
      rw [hold] at hmove
      exact .inr hmove
    · rename_i hold
      obtain ⟨-, rfl⟩ := run_pure_ok.mp h
      rw [hold] at hmove
      exact .inr hmove
  · exact .inl rfl

theorem setPayee_effect {payee : RewardDestination A}
    (h : (setPayee origin payee).run s = .ok u s') : Effect cfg origin call s s' := by
  unfold setPayee at h
  obtain ⟨controller, ledger, -, -, h⟩ := run_controller_ok h
  obtain rfl := run_modify_ok.mp h
  exact .roles _ _ _ _ _

theorem withRoles_validate (stash : A) (prefs : ValidatorPrefs) (s : State A) :
    doAddValidator stash prefs (doRemoveNominator stash s) = withRoles s s.payee
      (s.validators.insert stash prefs)
      (if stash ∈ s.validators then s.counterForValidators else s.counterForValidators + 1)
      (doRemoveNominator stash s).nominators (doRemoveNominator stash s).counterForNominators := by
  unfold doAddValidator doRemoveNominator withRoles
  split <;> rfl

theorem validate_effect {prefs : ValidatorPrefs}
    (h : (validate origin prefs).run s = .ok u s') : Effect cfg origin call s s' := by
  unfold validate at h
  obtain ⟨controller, ledger, -, -, h⟩ := run_controller_ok h
  obtain ⟨_, s₁, he, h⟩ := run_bind_ok.mp h
  obtain ⟨-, rfl⟩ := run_ensure_ok.mp he
  obtain ⟨_, s₂, he, h⟩ := run_bind_ok.mp h
  obtain ⟨-, rfl⟩ := run_ensure_ok.mp he
  obtain rfl := run_modify_ok.mp h
  rw [withRoles_validate]
  exact .roles _ _ _ _ _

theorem withRoles_nominate (stash : A) (targets : List A) (s : State A) :
    doAddNominator stash targets (doRemoveValidator stash s) = withRoles s s.payee
      (doRemoveValidator stash s).validators (doRemoveValidator stash s).counterForValidators
      (s.nominators.insert stash targets)
      (if stash ∈ s.nominators then s.counterForNominators else s.counterForNominators + 1) := by
  unfold doAddNominator doRemoveValidator withRoles
  split <;> rfl

theorem nominate_effect {targets : List A}
    (h : (nominate cfg origin targets).run s = .ok u s') : Effect cfg origin call s s' := by
  unfold nominate at h
  obtain ⟨controller, ledger, -, -, h⟩ := run_controller_ok h
  obtain ⟨_, s₁, he, h⟩ := run_bind_ok.mp h
  obtain ⟨-, rfl⟩ := run_ensure_ok.mp he
  obtain ⟨_, s₂, he, h⟩ := run_bind_ok.mp h
  obtain ⟨-, rfl⟩ := run_ensure_ok.mp he
  obtain ⟨_, s₃, he, h⟩ := run_bind_ok.mp h
  obtain ⟨-, rfl⟩ := run_ensure_ok.mp he
  obtain ⟨_, s₄, he, h⟩ := run_bind_ok.mp h
  obtain ⟨-, rfl⟩ := run_ensure_ok.mp he
  obtain ⟨_, s₅, he, h⟩ := run_bind_ok.mp h
  obtain ⟨-, rfl⟩ := run_ensure_ok.mp he
  obtain rfl := run_modify_ok.mp h
  rw [withRoles_nominate]
  exact .roles _ _ _ _ _

theorem chill_effect (h : (chill origin).run s = .ok u s') : Effect cfg origin call s s' := by
  unfold chill at h
  obtain ⟨controller, ledger, -, -, h⟩ := run_controller_ok h
  obtain rfl := run_modify_ok.mp h
  rw [withRoles_chillStash]
  exact .roles _ _ _ _ _

/-- The checks of `chill_other` read the state only. -/
theorem silent_ensureChillable (t : State A) (l : StakingLedger A) :
    Silent (ensureChillable t l) := by
  intro s
  unfold ensureChillable
  refine preserves_bind preserves_okOr fun threshold => ?_
  split
  · refine preserves_bind preserves_okOr fun maxNominatorCount => ?_
    exact preserves_bind preserves_ensure fun _ => preserves_ensure
  · split
    · refine preserves_bind preserves_okOr fun maxValidatorCount => ?_
      exact preserves_bind preserves_ensure fun _ => preserves_ensure
    · exact preserves_ensure

theorem chillOther_effect {controller : A}
    (h : (chillOther origin controller).run s = .ok u s') : Effect cfg origin call s s' := by
  unfold chillOther at h
  obtain ⟨caller, -, h⟩ := run_signed_ok h
  obtain ⟨ledger, s₁, hl, h⟩ := run_bind_ok.mp h
  obtain ⟨-, rfl⟩ := run_okOr_ok.mp hl
  obtain ⟨_, s₂, hw, hm⟩ := run_bind_ok.mp h
  have hs₂ : s₂ = s := by
    rcases run_when_ok.mp hw with ⟨-, hc⟩ | ⟨-, hs⟩
    · rw [← commit_of_ok hc]
      exact (silent_ensureChillable s ledger).commit_eq s
    · exact hs.symm
  rw [hs₂] at hm
  obtain rfl := run_modify_ok.mp hm
  rw [withRoles_chillStash]
  exact .roles _ _ _ _ _

theorem kick_effect {who : List A} (h : (kick origin who).run s = .ok u s') :
    Effect cfg origin call s s' := by
  unfold kick at h
  obtain ⟨controller, ledger, -, -, h⟩ := run_controller_ok h
  obtain rfl := run_modify_ok.mp h
  exact .roles _ _ _ _ _

theorem setStakingLimits_effect {n v : ℕ} {nc vc : Option ℕ} {threshold : Option Percent}
    (h : (setStakingLimits origin n v nc vc threshold).run s = .ok u s') :
    Effect cfg origin call s s' := by
  unfold setStakingLimits at h
  obtain ⟨_, s₁, ho, h⟩ := run_bind_ok.mp h
  obtain ⟨-, rfl⟩ := run_ensureRoot_ok.mp ho
  obtain rfl := run_modify_ok.mp h
  exact .limits _ _ _ _ _

theorem forceEras_effect {forcing : Forcing}
    (h : (forceEras origin forcing).run s = .ok u s') : Effect cfg origin call s s' := by
  unfold forceEras at h
  obtain ⟨_, s₁, ho, h⟩ := run_bind_ok.mp h
  obtain ⟨-, rfl⟩ := run_ensureRoot_ok.mp ho
  obtain rfl := run_modify_ok.mp h
  exact .forcing forcing

/-- **What a successful payout checks and does.** -/
theorem payoutStakers_spec {validatorStash : A} {era : ℕ}
    (h : (payoutStakers cfg origin validatorStash era).run s = .ok u s') :
    ∃ controller l currentEra payout, s.currentEra = some currentEra ∧ era ≤ currentEra ∧
      s.lastKept ≤ era ∧ s.erasValidatorReward era = some payout ∧
      s.bonded validatorStash = some controller ∧ s.ledger controller = some l ∧
      era ∉ retainedRewards s l ∧ s' = paidOut cfg s validatorStash controller l era payout := by
  unfold payoutStakers doPayoutStakers at h
  obtain ⟨_, -, h⟩ := run_signed_ok h
  obtain ⟨currentEra, s₁, hc, h⟩ := run_bind_ok.mp h
  obtain ⟨hcurrent, rfl⟩ := run_okOr_ok.mp hc
  obtain ⟨_, s₂, he, h⟩ := run_bind_ok.mp h
  obtain ⟨hera, rfl⟩ := run_ensure_ok.mp he
  obtain ⟨payout, s₃, hp, h⟩ := run_bind_ok.mp h
  obtain ⟨hpayout, rfl⟩ := run_okOr_ok.mp hp
  obtain ⟨controller, s₄, hb, h⟩ := run_bind_ok.mp h
  obtain ⟨hbonded, rfl⟩ := run_okOr_ok.mp hb
  obtain ⟨l, s₅, hl, h⟩ := run_bind_ok.mp h
  obtain ⟨hledger, rfl⟩ := run_okOr_ok.mp hl
  obtain ⟨_, s₆, hn, h⟩ := run_bind_ok.mp h
  obtain ⟨hclaim, rfl⟩ := run_ensure_ok.mp hn
  obtain ⟨_, s₇, hm, h⟩ := run_bind_ok.mp h
  obtain rfl := run_modify_ok.mp hm
  obtain rfl := run_modify_ok.mp h
  have hkept : s.lastKept ≤ era := by
    simpa [State.lastKept, hcurrent] using hera.2
  exact ⟨controller, l, currentEra, payout, hcurrent, hera.1, hkept, hpayout, hbonded, hledger,
    hclaim, rfl⟩

theorem payoutStakers_effect {validatorStash : A} {era : ℕ}
    (h : (payoutStakers cfg origin validatorStash era).run s = .ok u s') :
    Effect cfg origin (.payoutStakers validatorStash era) s s' := by
  obtain ⟨controller, l, currentEra, payout, hcurrent, hera, hkept, hpayout, hbonded, hledger,
    hclaim, rfl⟩ := payoutStakers_spec h
  exact .payout validatorStash controller l era payout hpayout hbonded hledger hclaim

theorem setHistoryDepth_effect {depth : ℕ}
    (h : (setHistoryDepth origin depth).run s = .ok u s') :
    s' = s ∨ Effect cfg origin call s s' := by
  unfold setHistoryDepth at h
  obtain ⟨_, s₁, ho, h⟩ := run_bind_ok.mp h
  obtain ⟨-, rfl⟩ := run_ensureRoot_ok.mp ho
  obtain ⟨t, s₂, hg, h⟩ := run_bind_ok.mp h
  obtain ⟨rfl, rfl⟩ := run_get_ok.mp hg
  split at h
  · obtain ⟨-, rfl⟩ := run_pure_ok.mp h
    exact .inl rfl
  · rename_i currentEra hcurrent
    obtain rfl := run_modify_ok.mp h
    have hhistory := @Effect.history A _ cfg origin call s currentEra depth hcurrent
    simp only [State.lastKept, hcurrent, Option.getD_some] at hhistory
    exact .inr hhistory

/-- **What a successful call does.** -/
theorem dispatch_effect {c : Call A} (h : (dispatch cfg origin c).run s = .ok u s') :
    s' = s ∨ Effect cfg origin c s s' := by
  cases c with
  | bond => exact .inr (bond_effect h)
  | bondExtra => exact bondExtra_effect h
  | unbond => exact unbond_effect h
  | withdrawUnbonded => exact .inr (withdrawUnbonded_effect h)
  | rebond => exact .inr (rebond_effect h)
  | setController => exact setController_effect h
  | setPayee => exact .inr (setPayee_effect h)
  | validate => exact .inr (validate_effect h)
  | nominate => exact .inr (nominate_effect h)
  | chill => exact .inr (chill_effect h)
  | chillOther => exact .inr (chillOther_effect h)
  | kick => exact .inr (kick_effect h)
  | forceUnstake => exact .inr (forceUnstake_effect h)
  | reapStash stash n =>
      have hreap : (reapStash cfg origin stash n).run s = .ok u s' := h
      exact .inr (reapStash_effect hreap)
  | payoutStakers => exact .inr (payoutStakers_effect h)
  | setHistoryDepth => exact setHistoryDepth_effect h
  | setStakingLimits => exact .inr (setStakingLimits_effect h)
  | forceNoEras => exact .inr (forceEras_effect h)
  | forceNewEra => exact .inr (forceEras_effect h)
  | forceNewEraAlways => exact .inr (forceEras_effect h)

end Inversion

/-! ## Failing calls -/

section Failing

open Dispatch

variable {origin : Origin A}

omit [DecidableEq A] in
theorem silent_ensureSigned : Silent (ensureSigned origin : StakingM A A) := by
  cases origin with
  | root => exact fun _ => preserves_throw _
  | signed who => exact fun _ => preserves_pure who

omit [DecidableEq A] in
theorem silent_ensureRoot : Silent (ensureRoot origin : StakingM A Unit) := by
  cases origin with
  | root => exact fun _ => preserves_pure ()
  | signed who => exact fun _ => preserves_throw _

theorem failsClean_killStash (stash : A) (n : ℕ) : FailsClean (killStash stash n) := by
  unfold killStash
  refine failsClean_bind silent_get fun s => ?_
  refine failsClean_bind silent_okOr fun controller => ?_
  refine failsClean_bind_neverFails ?_ fun _ => neverFails_modify _
  unfold clearStashMetadata
  refine failsClean_bind silent_get fun t => ?_
  split
  · exact (neverFails_pure ()).failsClean
  · exact failsClean_bind silent_ensure fun _ => failsClean_modify _

theorem failsClean_kill (stash : A) (n : ℕ) :
    FailsClean (do killStash stash n; modify (removeLock stash) : StakingM A Unit) :=
  failsClean_bind_neverFails (failsClean_killStash stash n) fun _ => neverFails_modify _

theorem failsClean_bond (controller : A) (value : ℕ) (payee : RewardDestination A) :
    FailsClean (bond cfg origin controller value payee) := by
  refine failsClean_bind silent_ensureSigned fun stash => ?_
  refine failsClean_bind silent_get fun s => ?_
  refine failsClean_bind silent_ensure fun _ => ?_
  refine failsClean_bind silent_ensure fun _ => ?_
  refine failsClean_bind silent_ensure fun _ => ?_
  refine failsClean_bind silent_okOr fun system => ?_
  exact failsClean_bind_neverFails (failsClean_modify _) fun _ => neverFails_modify _

theorem failsClean_bondExtra (maxAdditional : ℕ) :
    FailsClean (bondExtra cfg origin maxAdditional) := by
  refine failsClean_bind silent_ensureSigned fun stash => ?_
  refine failsClean_bind silent_get fun s => ?_
  refine failsClean_bind silent_okOr fun controller => ?_
  refine failsClean_bind silent_okOr fun ledger => ?_
  exact failsClean_when (failsClean_bind silent_ensure fun _ => failsClean_modify _)

theorem failsClean_unbond (value : ℕ) : FailsClean (unbond cfg origin value) := by
  refine failsClean_bind silent_ensureSigned fun controller => ?_
  refine failsClean_bind silent_get fun s => ?_
  refine failsClean_bind silent_okOr fun ledger => ?_
  refine failsClean_bind silent_ensure fun _ => ?_
  exact failsClean_when (failsClean_bind silent_ensure fun _ => failsClean_modify _)

theorem failsClean_withdrawUnbonded (n : ℕ) : FailsClean (withdrawUnbonded cfg origin n) := by
  refine failsClean_bind silent_ensureSigned fun controller => ?_
  refine failsClean_bind silent_get fun s => ?_
  refine failsClean_bind silent_okOr fun ledger => ?_
  split
  · exact failsClean_kill ledger.stash n
  · exact failsClean_modify _

theorem failsClean_rebond (value : ℕ) : FailsClean (rebond cfg origin value) := by
  refine failsClean_bind silent_ensureSigned fun controller => ?_
  refine failsClean_bind silent_get fun s => ?_
  refine failsClean_bind silent_okOr fun ledger => ?_
  refine failsClean_bind silent_ensure fun _ => ?_
  exact failsClean_bind silent_ensure fun _ => failsClean_modify _

theorem failsClean_setController (controller : A) :
    FailsClean (setController origin controller) := by
  refine failsClean_bind silent_ensureSigned fun stash => ?_
  refine failsClean_bind silent_get fun s => ?_
  refine failsClean_bind silent_okOr fun oldController => ?_
  refine failsClean_bind silent_ensure fun _ => ?_
  refine failsClean_when (failsClean_bind_neverFails (failsClean_modify _) fun _ => ?_)
  split
  · exact neverFails_modify _
  · exact neverFails_pure ()

theorem failsClean_setPayee (payee : RewardDestination A) :
    FailsClean (setPayee origin payee) := by
  refine failsClean_bind silent_ensureSigned fun controller => ?_
  refine failsClean_bind silent_get fun s => ?_
  exact failsClean_bind silent_okOr fun ledger => failsClean_modify _

theorem failsClean_validate (prefs : ValidatorPrefs) : FailsClean (validate origin prefs) := by
  refine failsClean_bind silent_ensureSigned fun controller => ?_
  refine failsClean_bind silent_get fun s => ?_
  refine failsClean_bind silent_okOr fun ledger => ?_
  refine failsClean_bind silent_ensure fun _ => ?_
  exact failsClean_bind silent_ensure fun _ => failsClean_modify _

theorem failsClean_nominate (targets : List A) : FailsClean (nominate cfg origin targets) := by
  refine failsClean_bind silent_ensureSigned fun controller => ?_
  refine failsClean_bind silent_get fun s => ?_
  refine failsClean_bind silent_okOr fun ledger => ?_
  refine failsClean_bind silent_ensure fun _ => ?_
  refine failsClean_bind silent_ensure fun _ => ?_
  refine failsClean_bind silent_ensure fun _ => ?_
  refine failsClean_bind silent_ensure fun _ => ?_
  exact failsClean_bind silent_ensure fun _ => failsClean_modify _

theorem failsClean_chill : FailsClean (chill origin) := by
  refine failsClean_bind silent_ensureSigned fun controller => ?_
  refine failsClean_bind silent_get fun s => ?_
  exact failsClean_bind silent_okOr fun ledger => failsClean_modify _

theorem failsClean_chillOther (controller : A) : FailsClean (chillOther origin controller) := by
  refine failsClean_bind silent_ensureSigned fun caller => ?_
  refine failsClean_bind silent_get fun s => ?_
  refine failsClean_bind silent_okOr fun ledger => ?_
  refine failsClean_bind (fun t => ?_) fun _ => failsClean_modify _
  exact preserves_when (silent_ensureChillable s ledger t)

theorem failsClean_kick (who : List A) : FailsClean (kick origin who) := by
  refine failsClean_bind silent_ensureSigned fun controller => ?_
  refine failsClean_bind silent_get fun s => ?_
  exact failsClean_bind silent_okOr fun ledger => failsClean_modify _

omit [DecidableEq A] in
theorem failsClean_forceEras (forcing : Forcing) : FailsClean (forceEras origin forcing) :=
  failsClean_bind silent_ensureRoot fun _ => failsClean_modify _

theorem failsClean_payoutStakers (validatorStash : A) (era : ℕ) :
    FailsClean (payoutStakers cfg origin validatorStash era) := by
  refine failsClean_bind silent_ensureSigned fun who => ?_
  refine failsClean_bind silent_get fun s => ?_
  refine failsClean_bind silent_okOr fun currentEra => ?_
  refine failsClean_bind silent_ensure fun _ => ?_
  refine failsClean_bind silent_okOr fun payout => ?_
  refine failsClean_bind silent_okOr fun controller => ?_
  refine failsClean_bind silent_okOr fun ledger => ?_
  refine failsClean_bind silent_ensure fun _ => ?_
  exact failsClean_bind_neverFails (failsClean_modify _) fun _ => neverFails_modify _

omit [DecidableEq A] in
theorem failsClean_setHistoryDepth (depth : ℕ) : FailsClean (setHistoryDepth origin depth) := by
  refine failsClean_bind silent_ensureRoot fun _ => ?_
  refine failsClean_bind silent_get fun s => ?_
  split
  · exact (neverFails_pure ()).failsClean
  · exact failsClean_modify _

/-- **A call that fails leaves no trace.** -/
theorem failsClean_dispatch (c : Call A) : FailsClean (dispatch cfg origin c) := by
  cases c with
  | bond => exact failsClean_bond _ _ _
  | bondExtra => exact failsClean_bondExtra _
  | unbond => exact failsClean_unbond _
  | withdrawUnbonded => exact failsClean_withdrawUnbonded _
  | rebond => exact failsClean_rebond _
  | setController => exact failsClean_setController _
  | setPayee => exact failsClean_setPayee _
  | validate => exact failsClean_validate _
  | nominate => exact failsClean_nominate _
  | chill => exact failsClean_chill
  | chillOther => exact failsClean_chillOther _
  | kick => exact failsClean_kick _
  | forceUnstake stash n =>
      exact failsClean_bind silent_ensureRoot fun _ => failsClean_kill stash n
  | reapStash stash n =>
      refine failsClean_bind silent_get fun s => ?_
      exact failsClean_bind silent_ensure fun _ => failsClean_kill stash n
  | payoutStakers => exact failsClean_payoutStakers _ _
  | setHistoryDepth => exact failsClean_setHistoryDepth _
  | setStakingLimits => exact failsClean_bind silent_ensureRoot fun _ => failsClean_modify _
  | forceNoEras => exact failsClean_forceEras _
  | forceNewEra => exact failsClean_forceEras _
  | forceNewEraAlways => exact failsClean_forceEras _

variable (cfg origin) in
/-- **A call changes nothing or has an effect.** -/
theorem dispatch_cases (c : Call A) (s : State A) :
    (dispatch cfg origin c).commit s = s ∨
      Effect cfg origin c s ((dispatch cfg origin c).commit s) := by
  rcases (failsClean_dispatch c).commit_cases s with ⟨u, hrun⟩ | hsame
  · exact dispatch_effect hrun
  · exact .inl hsame

end Failing

/-! ## What calls leave alone -/

/-- What the pallet keeps about eras and sessions. -/
structure EraRecords (A : Type) where
  currentEra : Option ℕ
  activeEra : Option ActiveEraInfo
  session : Option ℕ
  historyDepth : ℕ
  erasStartSessionIndex : ℕ → Option ℕ
  erasStakersClipped : ℕ → A → Exposure A
  erasValidatorPrefs : ℕ → A → ValidatorPrefs
  erasValidatorReward : ℕ → Option (ℕ × ℕ)
  erasRewardPoints : ℕ → EraRewardPoints A
  eraPayouts : List EraPayout

omit [DecidableEq A] in
/-- The records of a state about eras. -/
def State.eras (s : State A) : EraRecords A where
  currentEra := s.currentEra
  activeEra := s.activeEra
  session := s.session
  historyDepth := s.historyDepth
  erasStartSessionIndex := s.erasStartSessionIndex
  erasStakersClipped := s.erasStakersClipped
  erasValidatorPrefs := s.erasValidatorPrefs
  erasValidatorReward := s.erasValidatorReward
  erasRewardPoints := s.erasRewardPoints
  eraPayouts := s.eraPayouts

@[simp] theorem updateLedger_eras (controller : A) (l : StakingLedger A) (s : State A) :
    (updateLedger cfg controller l s).eras = s.eras := rfl

@[simp] theorem mint_eras (allowed : Bool) (who : A) (n : ℕ) (s : State A) :
    (mint allowed who n s).eras = s.eras := by
  unfold mint
  split <;> rfl

@[simp] theorem chillStash_eras (stash : A) (s : State A) :
    (chillStash stash s).eras = s.eras := by
  rw [withRoles_chillStash]
  rfl

@[simp] theorem forgetStash_eras (stash controller : A) (s : State A) :
    (forgetStash stash controller s).eras = s.eras := by
  unfold forgetStash
  dsimp only
  rw [withRoles_chillStash]
  rfl

@[simp] theorem removeLock_eras (stash : A) (s : State A) :
    (removeLock stash s).eras = s.eras := rfl

@[simp] theorem makeSetterPayout_eras (stash : A) (n : ℕ) (s : State A) :
    (makeSetterPayout cfg stash n s).eras = s.eras := by
  unfold makeSetterPayout
  dsimp only
  split
  · split <;> rfl
  · split <;> rfl
  · rfl

@[simp] theorem makeNativePayout_eras (stash : A) (n : ℕ) (s : State A) :
    (makeNativePayout cfg stash n s).eras = s.eras := by
  unfold makeNativePayout depositCreating depositIntoExisting
  repeat' split
  all_goals simp

theorem foldl_makePayout_eras (payments : List (A × ℕ × ℕ)) (s : State A) :
    (payments.foldl (makePayout cfg) s).eras = s.eras := by
  induction payments generalizing s with
  | nil => rfl
  | cons payment payments ih =>
      rw [List.foldl_cons, ih]
      simp [makePayout]

/-- **Only a change of the history depth touches the records about eras.** -/
theorem Effect.eras_eq {s s' : State A} {origin : Origin A} {call : Call A}
    (h : Effect cfg origin call s s') :
    s'.eras = s.eras ∨ ∃ currentEra depth, s.currentEra = some currentEra ∧
      s' = { clearEras (List.range' s.lastKept (currentEra - depth - s.lastKept)) s with
        historyDepth := depth } := by
  cases h with
  | bond => exact .inl rfl
  | rewrite => exact .inl rfl
  | withdraw => exact .inl rfl
  | kill stash controller spans hbonded =>
      left
      rw [removeLock_eras, forgetStash_eras]
      rfl
  | setController => exact .inl rfl
  | roles => exact .inl rfl
  | limits => exact .inl rfl
  | forcing => exact .inl rfl
  | payout => exact .inl (foldl_makePayout_eras _ _)
  | history currentEra depth hcurrent => exact .inr ⟨currentEra, depth, hcurrent, rfl⟩

end Setheum.Staking
