import Setheum.Lib.CountedMap
import Setheum.Staking.Books

/-!
# The roles of the bonded stashes

A bonded stash may validate or nominate. Both roles are maps with a counter, which the election
reads to size its snapshot. A dozen calls add to the maps or remove from them; `RoleStep` says once
what a step can do to them, and the invariant follows from its five cases.

* `step_roles` — a step adds a validator or a nominator, chills a stash, kicks or leaves the roles.
* `Roles.step` — every step keeps the roles apart, bonded and counted.
* `roles_sound` — so they are after every run, and no counter is raised above its maximum.
-/

set_option autoImplicit false

namespace Setheum.Staking

open StorageMap

variable {A : Type} [DecidableEq A] {cfg : Config A}

/-- What the pallet keeps about roles. -/
structure RoleRecords (A : Type) where
  validators : Map A ValidatorPrefs
  counterForValidators : ℕ
  nominators : Map A (List A)
  counterForNominators : ℕ

omit [DecidableEq A] in
/-- The records of a state about roles. -/
def State.roles (s : State A) : RoleRecords A where
  validators := s.validators
  counterForValidators := s.counterForValidators
  nominators := s.nominators
  counterForNominators := s.counterForNominators

/-- No stash has both roles, each stash with a role is staked, and the counters are right. -/
structure Roles (staked : A → Prop) (r : RoleRecords A) : Prop where
  disjoint : ∀ a, a ∈ r.validators → a ∉ r.nominators
  staked : ∀ a, a ∈ r.validators ∨ a ∈ r.nominators → staked a
  validators_counted : Counted r.validators r.counterForValidators
  nominators_counted : Counted r.nominators r.counterForNominators

/-! ## Adding and removing roles -/

section Operations

variable {s : State A} {staked staked' : A → Prop} {r : RoleRecords A}

theorem mem_doRemoveValidator {who a : A} :
    a ∈ (doRemoveValidator who s).validators ↔ a ≠ who ∧ a ∈ s.validators := by
  unfold doRemoveValidator
  split
  · exact AList.mem_erase
  · rename_i hwho
    refine ⟨fun h => ⟨?_, h⟩, fun h => h.2⟩
    rintro rfl
    exact hwho h

theorem mem_doRemoveNominator {who a : A} :
    a ∈ (doRemoveNominator who s).nominators ↔ a ≠ who ∧ a ∈ s.nominators := by
  unfold doRemoveNominator
  split
  · exact AList.mem_erase
  · rename_i hwho
    refine ⟨fun h => ⟨?_, h⟩, fun h => h.2⟩
    rintro rfl
    exact hwho h

theorem counted_doRemoveValidator (who : A) (h : Counted s.validators s.counterForValidators) :
    Counted (doRemoveValidator who s).validators
      (doRemoveValidator who s).counterForValidators := by
  unfold doRemoveValidator
  split
  · rename_i hwho
    exact h.erase hwho
  · exact h

theorem counted_doRemoveNominator (who : A) (h : Counted s.nominators s.counterForNominators) :
    Counted (doRemoveNominator who s).nominators
      (doRemoveNominator who s).counterForNominators := by
  unfold doRemoveNominator
  split
  · rename_i hwho
    exact h.erase hwho
  · exact h

/-- Removing a validator leaves the nominators alone. -/
theorem doRemoveValidator_rest (who : A) (s : State A) :
    (doRemoveValidator who s).nominators = s.nominators ∧
      (doRemoveValidator who s).counterForNominators = s.counterForNominators := by
  unfold doRemoveValidator
  split <;> exact ⟨rfl, rfl⟩

/-- Removing a nominator leaves the validators alone. -/
theorem doRemoveNominator_rest (who : A) (s : State A) :
    (doRemoveNominator who s).validators = s.validators ∧
      (doRemoveNominator who s).counterForValidators = s.counterForValidators := by
  unfold doRemoveNominator
  split <;> exact ⟨rfl, rfl⟩

omit [DecidableEq A] in
theorem Roles.mono (h : Roles staked r) (himp : ∀ a, staked a → staked' a) : Roles staked' r where
  disjoint := h.disjoint
  staked a ha := himp a (h.staked a ha)
  validators_counted := h.validators_counted
  nominators_counted := h.nominators_counted

theorem Roles.removeValidator (h : Roles staked s.roles) (who : A) :
    Roles staked (doRemoveValidator who s).roles := by
  obtain ⟨hnominators, hcounter⟩ := doRemoveValidator_rest who s
  refine ⟨fun a ha hna => ?_, fun a ha => ?_,
    counted_doRemoveValidator who h.validators_counted, ?_⟩
  · rw [State.roles, hnominators] at hna
    exact h.disjoint a (mem_doRemoveValidator.mp ha).2 hna
  · refine h.staked a (ha.imp (fun hv => (mem_doRemoveValidator.mp hv).2) fun hn => ?_)
    rwa [State.roles, hnominators] at hn
  · show Counted (doRemoveValidator who s).nominators (doRemoveValidator who s).counterForNominators
    rw [hnominators, hcounter]
    exact h.nominators_counted

theorem Roles.removeNominator (h : Roles staked s.roles) (who : A) :
    Roles staked (doRemoveNominator who s).roles := by
  obtain ⟨hvalidators, hcounter⟩ := doRemoveNominator_rest who s
  refine ⟨fun a ha hna => ?_, fun a ha => ?_, ?_,
    counted_doRemoveNominator who h.nominators_counted⟩
  · rw [State.roles, hvalidators] at ha
    exact h.disjoint a ha (mem_doRemoveNominator.mp hna).2
  · refine h.staked a (ha.imp (fun hv => ?_) fun hn => (mem_doRemoveNominator.mp hn).2)
    rwa [State.roles, hvalidators] at hv
  · show Counted (doRemoveNominator who s).validators
      (doRemoveNominator who s).counterForValidators
    rw [hvalidators, hcounter]
    exact h.validators_counted

/-- **Chilling a stash takes both roles from it**, so it need not be staked any more. -/
theorem Roles.chillStash (h : Roles staked s.roles) (stash : A) :
    Roles (fun a => a ≠ stash ∧ staked a) (chillStash stash s).roles := by
  have hkept := (h.removeValidator stash).removeNominator stash
  obtain ⟨hvalidators, -⟩ := doRemoveNominator_rest stash (doRemoveValidator stash s)
  refine ⟨hkept.disjoint, fun a ha => ⟨?_, hkept.staked a ha⟩, hkept.validators_counted,
    hkept.nominators_counted⟩
  rcases ha with hv | hn
  · have hv' : a ∈ (doRemoveNominator stash (doRemoveValidator stash s)).validators := hv
    rw [hvalidators] at hv'
    exact (mem_doRemoveValidator.mp hv').1
  · exact (mem_doRemoveNominator.mp hn).1

/-- **A staked stash may become a validator** once it is no nominator. -/
theorem Roles.validate (h : Roles staked s.roles) {stash : A} (hstash : staked stash)
    (prefs : ValidatorPrefs) :
    Roles staked (doAddValidator stash prefs (doRemoveNominator stash s)).roles := by
  have hremoved := h.removeNominator stash
  refine ⟨fun a ha hna => ?_, fun a ha => ?_, hremoved.validators_counted.insert stash prefs,
    hremoved.nominators_counted⟩
  · have hne : a ≠ stash := (mem_doRemoveNominator.mp hna).1
    have hold := ((AList.mem_insert _).mp ha).resolve_left hne
    exact hremoved.disjoint a hold hna
  · rcases ha with hv | hn
    · rcases (AList.mem_insert _).mp hv with rfl | hold
      · exact hstash
      · exact hremoved.staked a (.inl hold)
    · exact hremoved.staked a (.inr hn)

/-- **A staked stash may become a nominator** once it is no validator. -/
theorem Roles.nominate (h : Roles staked s.roles) {stash : A} (hstash : staked stash)
    (targets : List A) :
    Roles staked (doAddNominator stash targets (doRemoveValidator stash s)).roles := by
  have hremoved := h.removeValidator stash
  refine ⟨fun a ha hna => ?_, fun a ha => ?_, hremoved.validators_counted,
    hremoved.nominators_counted.insert stash targets⟩
  · have hne : a ≠ stash := (mem_doRemoveValidator.mp ha).1
    have hold := ((AList.mem_insert _).mp hna).resolve_left hne
    exact hremoved.disjoint a ha hold
  · rcases ha with hv | hn
    · exact hremoved.staked a (.inl hv)
    · rcases (AList.mem_insert _).mp hn with rfl | hold
      · exact hstash
      · exact hremoved.staked a (.inr hold)

/-- The nominators after a validator has kicked some of them. -/
def kicked (validator : A) (who : List A) (nominators : Map A (List A)) : Map A (List A) :=
  who.foldl (fun nominators nomStash =>
    match nominators.lookup nomStash with
    | some targets => nominators.insert nomStash (swapRemove validator targets)
    | none => nominators) nominators

/-- A kicked nominator stays one, with a target less. -/
theorem kicked_spec (validator : A) (who : List A) (nominators : Map A (List A)) :
    (∀ a, a ∈ kicked validator who nominators ↔ a ∈ nominators) ∧
      ∀ count, Counted nominators count → Counted (kicked validator who nominators) count := by
  induction who generalizing nominators with
  | nil => exact ⟨fun _ => Iff.rfl, fun _ h => h⟩
  | cons nomStash who ih =>
      unfold kicked at ih ⊢
      rw [List.foldl_cons]
      cases hlookup : nominators.lookup nomStash with
      | none => exact ih nominators
      | some targets =>
          have hmem : nomStash ∈ nominators := by
            rw [← AList.lookup_isSome, hlookup]
            rfl
          obtain ⟨hkeys, hcounted⟩ := ih (nominators.insert nomStash (swapRemove validator targets))
          exact ⟨fun a => (hkeys a).trans (mem_replace hmem _ a),
            fun count h => hcounted count (h.replace hmem _)⟩

theorem Roles.kick (h : Roles staked r) (validator : A) (who : List A) :
    Roles staked { r with nominators := kicked validator who r.nominators } := by
  obtain ⟨hkeys, hcounted⟩ := kicked_spec validator who r.nominators
  refine ⟨fun a ha hna => h.disjoint a ha ((hkeys a).mp hna), fun a ha => ?_,
    h.validators_counted, hcounted _ h.nominators_counted⟩
  exact h.staked a (ha.imp_right (hkeys a).mp)

end Operations

/-! ## What a step does to the roles -/

/-- The ways in which a step changes the roles: it adds a validator or a nominator, if the counter
is below its maximum, or chills a stash, which may leave, or kicks nominators, or does nothing. -/
inductive RoleStep (s s' : State A) : Prop
  | kept (hroles : s'.roles = s.roles) (hbonded : ∀ a, s.bonded a ≠ none → s'.bonded a ≠ none)
  | validate (controller : A) (l : StakingLedger A) (prefs : ValidatorPrefs)
      (hledger : s.ledger controller = some l)
      (hroom : l.stash ∈ s.validators ∨
        ∀ maxValidators ∈ s.maxValidatorsCount, s.counterForValidators < maxValidators)
      (hs' : s' = doAddValidator l.stash prefs (doRemoveNominator l.stash s))
  | nominate (controller : A) (l : StakingLedger A) (targets : List A)
      (hledger : s.ledger controller = some l)
      (hroom : l.stash ∈ s.nominators ∨
        ∀ maxNominators ∈ s.maxNominatorsCount, s.counterForNominators < maxNominators)
      (hs' : s' = doAddNominator l.stash targets (doRemoveValidator l.stash s))
  | chill (stash : A) (hroles : s'.roles = (chillStash stash s).roles)
      (hbonded : ∀ a, a ≠ stash → s.bonded a ≠ none → s'.bonded a ≠ none)
  | kick (validator : A) (who : List A)
      (hroles : s'.roles = { s.roles with nominators := kicked validator who s.nominators })
      (hbonded : s'.bonded = s.bonded)

/-- The roles stay as they are, and every bonded stash stays bonded. -/
def KeepsRoles (s t : State A) : Prop :=
  t.roles = s.roles ∧ ∀ a, s.bonded a ≠ none → t.bonded a ≠ none

section Calls

open Dispatch

variable {s s' : State A} {origin : Origin A} {u : Unit}

omit [DecidableEq A] in
theorem KeepsRoles.refl (s : State A) : KeepsRoles s s := ⟨rfl, fun _ h => h⟩

theorem KeepsRoles.updateLedger {t : State A} (h : KeepsRoles s t) (controller : A)
    (l : StakingLedger A) : KeepsRoles s (updateLedger cfg controller l t) := h

/-- Bonding a stash, or moving it to another controller, leaves all others bonded. -/
theorem bonded_update {bonded : A → Option A} (h : ∀ a, s.bonded a ≠ none → bonded a ≠ none)
    (stash controller : A) :
    ∀ a, s.bonded a ≠ none → Function.update bonded stash (some controller) a ≠ none := by
  intro a ha
  by_cases hstash : a = stash
  · rw [hstash, Function.update_self]
    exact Option.some_ne_none controller
  · rw [Function.update_of_ne hstash]
    exact h a ha

theorem roles_chillStash_congr {t : State A} (h : t.roles = s.roles) (stash : A) :
    (chillStash stash t).roles = (chillStash stash s).roles := by
  obtain ⟨hvalidators, hcv, hnominators, hcn⟩ := RoleRecords.mk.inj h
  have hremove : (doRemoveValidator stash t).roles = (doRemoveValidator stash s).roles := by
    unfold doRemoveValidator State.roles
    rw [hvalidators]
    split
    · simp only [hcv, hnominators, hcn]
    · simp only [hvalidators, hcv, hnominators, hcn]
  obtain ⟨hvalidators', hcv', hnominators', hcn'⟩ := RoleRecords.mk.inj hremove
  unfold chillStash
  show (doRemoveNominator stash (doRemoveValidator stash t)).roles
    = (doRemoveNominator stash (doRemoveValidator stash s)).roles
  generalize doRemoveValidator stash t = t' at *
  generalize doRemoveValidator stash s = s' at *
  unfold doRemoveNominator State.roles
  rw [hnominators']
  split
  · simp only [hvalidators', hcv', hcn']
  · simp only [hvalidators', hcv', hnominators', hcn']

theorem keepsRoles_bond (controller : A) (value : ℕ) (payee : RewardDestination A) :
    Preserves (KeepsRoles s) (bond cfg origin controller value payee) := by
  refine preserves_bind silent_ensureSigned.preserves fun stash => ?_
  refine preserves_bind preserves_get fun t => ?_
  refine preserves_bind preserves_ensure fun _ => ?_
  refine preserves_bind preserves_ensure fun _ => ?_
  refine preserves_bind preserves_ensure fun _ => ?_
  refine preserves_bind preserves_okOr fun system => ?_
  refine preserves_bind (preserves_modify fun t h => ?_) fun _ =>
    preserves_modify fun t h => h.updateLedger controller _
  exact ⟨h.1, bonded_update h.2 stash controller⟩

theorem keepsRoles_bondExtra (maxAdditional : ℕ) :
    Preserves (KeepsRoles s) (bondExtra cfg origin maxAdditional) := by
  refine preserves_bind silent_ensureSigned.preserves fun stash => ?_
  refine preserves_bind preserves_get fun t => ?_
  refine preserves_bind preserves_okOr fun controller => ?_
  refine preserves_bind preserves_okOr fun ledger => ?_
  exact preserves_when (preserves_bind preserves_ensure fun _ =>
    preserves_modify fun t h => h.updateLedger controller _)

theorem keepsRoles_unbond (value : ℕ) :
    Preserves (KeepsRoles s) (unbond cfg origin value) := by
  refine preserves_bind silent_ensureSigned.preserves fun controller => ?_
  refine preserves_bind preserves_get fun t => ?_
  refine preserves_bind preserves_okOr fun ledger => ?_
  refine preserves_bind preserves_ensure fun _ => ?_
  exact preserves_when (preserves_bind preserves_ensure fun _ =>
    preserves_modify fun t h => h.updateLedger controller _)

theorem keepsRoles_rebond (value : ℕ) :
    Preserves (KeepsRoles s) (rebond cfg origin value) := by
  refine preserves_bind silent_ensureSigned.preserves fun controller => ?_
  refine preserves_bind preserves_get fun t => ?_
  refine preserves_bind preserves_okOr fun ledger => ?_
  refine preserves_bind preserves_ensure fun _ => ?_
  exact preserves_bind preserves_ensure fun _ =>
    preserves_modify fun t h => h.updateLedger controller _

theorem keepsRoles_setController (controller : A) :
    Preserves (KeepsRoles s) (setController origin controller) := by
  refine preserves_bind silent_ensureSigned.preserves fun stash => ?_
  refine preserves_bind preserves_get fun t => ?_
  refine preserves_bind preserves_okOr fun oldController => ?_
  refine preserves_bind preserves_ensure fun _ => ?_
  refine preserves_when (preserves_bind (preserves_modify fun t h => ?_) fun _ => ?_)
  · exact ⟨h.1, bonded_update h.2 stash controller⟩
  · split
    · exact preserves_modify fun t h => h
    · exact preserves_pure ()

theorem keepsRoles_setPayee (payee : RewardDestination A) :
    Preserves (KeepsRoles s) (setPayee origin payee) := by
  refine preserves_bind silent_ensureSigned.preserves fun controller => ?_
  refine preserves_bind preserves_get fun t => ?_
  exact preserves_bind preserves_okOr fun ledger => preserves_modify fun t h => h

omit [DecidableEq A] in
theorem keepsRoles_clearEras (eras : List ℕ) {t : State A} (h : KeepsRoles s t) :
    KeepsRoles s (clearEras eras t) := by
  induction eras generalizing t with
  | nil => exact h
  | cons era eras ih =>
      exact ih (show KeepsRoles s (clearEraInformation era t) from h)

omit [DecidableEq A] in
theorem keepsRoles_setHistoryDepth (depth : ℕ) :
    Preserves (KeepsRoles s) (setHistoryDepth origin depth) := by
  refine preserves_bind silent_ensureRoot.preserves fun _ => ?_
  refine preserves_bind preserves_get fun t => ?_
  split
  · exact preserves_pure ()
  · exact preserves_modify fun t h => keepsRoles_clearEras _ h

omit [DecidableEq A] in
theorem keepsRoles_forceEras (forcing : Forcing) :
    Preserves (KeepsRoles s) (forceEras origin forcing) :=
  preserves_bind silent_ensureRoot.preserves fun _ => preserves_modify fun _ h => h

omit [DecidableEq A] in
theorem keepsRoles_setStakingLimits (n v : ℕ) (nc vc : Option ℕ) (threshold : Option Percent) :
    Preserves (KeepsRoles s) (setStakingLimits origin n v nc vc threshold) :=
  preserves_bind silent_ensureRoot.preserves fun _ => preserves_modify fun _ h => h

theorem mint_roles (allowed : Bool) (who : A) (n : ℕ) (t : State A) :
    (mint allowed who n t).roles = t.roles := by
  unfold mint
  split <;> rfl

variable (cfg) in
theorem makePayout_roles (t : State A) (payment : A × ℕ × ℕ) :
    (makePayout cfg t payment).roles = t.roles := by
  have hsetter : (makeSetterPayout cfg payment.1 payment.2.1 t).roles = t.roles := by
    unfold makeSetterPayout
    dsimp only
    split
    · split <;> rfl
    · split <;> rfl
    · rfl
  unfold makePayout
  rw [← hsetter]
  generalize makeSetterPayout cfg payment.1 payment.2.1 t = t'
  unfold makeNativePayout depositCreating depositIntoExisting
  split
  · rfl
  · split
    · split
      · exact mint_roles _ _ _ t'
      · rfl
    · exact mint_roles _ _ _ t'
    · split
      · rfl
      · split
        · rfl
        · exact mint_roles _ _ _ t'
    · exact mint_roles _ _ _ t'
    · rfl

variable (cfg) in
/-- A payment unbonds nobody. -/
theorem keepsRoles_makePayout {t : State A} (h : KeepsRoles s t) (payment : A × ℕ × ℕ) :
    KeepsRoles s (makePayout cfg t payment) := by
  refine ⟨(makePayout_roles cfg t payment).trans h.1, ?_⟩
  have hbonded : (makePayout cfg t payment).bonded = t.bonded := by
    rcases makePayout_bonds_cases cfg t payment with hsame | ⟨controller, l, -, -, hstored⟩
    · exact congrArg BondRecords.bonded hsame
    · exact congrArg BondRecords.bonded hstored
  rw [hbonded]
  exact h.2

theorem keepsRoles_payoutStakers (validatorStash : A) (era : ℕ) :
    Preserves (KeepsRoles s) (payoutStakers cfg origin validatorStash era) := by
  refine preserves_bind silent_ensureSigned.preserves fun _ => ?_
  refine preserves_bind preserves_get fun t => ?_
  refine preserves_bind preserves_okOr fun currentEra => ?_
  refine preserves_bind preserves_ensure fun _ => ?_
  refine preserves_bind preserves_okOr fun payout => ?_
  refine preserves_bind preserves_okOr fun controller => ?_
  refine preserves_bind preserves_okOr fun ledger => ?_
  refine preserves_bind preserves_ensure fun _ => ?_
  refine preserves_bind (preserves_modify fun _ h => h) fun _ => preserves_modify fun t' h => ?_
  generalize paymentsOf t validatorStash ledger.stash era payout = payments
  induction payments generalizing t' with
  | nil => exact h
  | cons payment payments ih => exact ih _ (keepsRoles_makePayout cfg h payment)

theorem forgetStash_roles (stash controller : A) (s : State A) :
    (forgetStash stash controller s).roles = (chillStash stash s).roles := by
  let t : State A := { s with
    bonded := Function.update s.bonded stash none
    ledger := Function.update s.ledger controller none
    payee := Function.update s.payee stash .Staked }
  have hsame : t.roles = s.roles := rfl
  rw [← roles_chillStash_congr hsame stash]
  rfl

/-- Killing a stash takes its roles and unbonds nobody else. -/
theorem roleStep_kill {stash controller : A} (spans : A → Option SlashingSpans)
    (s : State A) :
    RoleStep s
      (removeLock stash (forgetStash stash controller { s with slashingSpans := spans })) := by
  let t : State A := { s with slashingSpans := spans }
  have hsame : t.roles = s.roles := rfl
  have hforget : (removeLock stash (forgetStash stash controller t)).roles
      = (chillStash stash t).roles := forgetStash_roles stash controller t
  refine .chill stash (hforget.trans (roles_chillStash_congr hsame stash)) fun a hne ha => ?_
  have hbonded : (removeLock stash (forgetStash stash controller t)).bonded
      = Function.update s.bonded stash none :=
    congrArg BondRecords.bonded (kill_bonds stash controller spans s)
  show (removeLock stash (forgetStash stash controller t)).bonded a ≠ none
  rw [hbonded, Function.update_of_ne hne]
  exact ha

theorem roleStep_of_kill {stash : A} {n : ℕ}
    (h : (do killStash stash n; modify (removeLock stash) : StakingM A Unit).run s = .ok u s') :
    RoleStep s s' := by
  obtain ⟨_, s₁, hk, h⟩ := run_bind_ok.mp h
  obtain ⟨controller, spans, -, rfl⟩ := killStash_spec hk
  obtain rfl := run_modify_ok.mp h
  exact roleStep_kill spans s

theorem roleStep_withdrawUnbonded {n : ℕ}
    (h : (withdrawUnbonded cfg origin n).run s = .ok u s') : RoleStep s s' := by
  unfold withdrawUnbonded at h
  obtain ⟨controller, ledger, -, -, h⟩ := run_controller_ok h
  split at h
  · exact roleStep_of_kill h
  · obtain rfl := run_modify_ok.mp h
    exact .kept rfl fun _ ha => ha

theorem roleStep_forceUnstake {stash : A} {n : ℕ}
    (h : (forceUnstake origin stash n).run s = .ok u s') : RoleStep s s' := by
  unfold forceUnstake at h
  obtain ⟨_, s₁, ho, h⟩ := run_bind_ok.mp h
  obtain ⟨-, rfl⟩ := run_ensureRoot_ok.mp ho
  exact roleStep_of_kill h

theorem roleStep_reapStash {stash : A} {n : ℕ}
    (h : (reapStash cfg origin stash n).run s = .ok u s') : RoleStep s s' := by
  unfold reapStash at h
  obtain ⟨t, s₁, hg, h⟩ := run_bind_ok.mp h
  obtain ⟨rfl, rfl⟩ := run_get_ok.mp hg
  obtain ⟨_, s₂, he, h⟩ := run_bind_ok.mp h
  obtain ⟨-, rfl⟩ := run_ensure_ok.mp he
  exact roleStep_of_kill h

theorem roleStep_validate {prefs : ValidatorPrefs}
    (h : (validate origin prefs).run s = .ok u s') : RoleStep s s' := by
  unfold validate at h
  obtain ⟨controller, ledger, -, hledger, h⟩ := run_controller_ok h
  obtain ⟨_, s₁, he, h⟩ := run_bind_ok.mp h
  obtain ⟨-, rfl⟩ := run_ensure_ok.mp he
  obtain ⟨_, s₂, he, h⟩ := run_bind_ok.mp h
  obtain ⟨hroom, rfl⟩ := run_ensure_ok.mp he
  obtain rfl := run_modify_ok.mp h
  exact .validate controller ledger prefs hledger hroom rfl

theorem roleStep_nominate {targets : List A}
    (h : (nominate cfg origin targets).run s = .ok u s') : RoleStep s s' := by
  unfold nominate at h
  obtain ⟨controller, ledger, -, hledger, h⟩ := run_controller_ok h
  obtain ⟨_, s₁, he, h⟩ := run_bind_ok.mp h
  obtain ⟨-, rfl⟩ := run_ensure_ok.mp he
  obtain ⟨_, s₂, he, h⟩ := run_bind_ok.mp h
  obtain ⟨hroom, rfl⟩ := run_ensure_ok.mp he
  obtain ⟨_, s₃, he, h⟩ := run_bind_ok.mp h
  obtain ⟨-, rfl⟩ := run_ensure_ok.mp he
  obtain ⟨_, s₄, he, h⟩ := run_bind_ok.mp h
  obtain ⟨-, rfl⟩ := run_ensure_ok.mp he
  obtain ⟨_, s₅, he, h⟩ := run_bind_ok.mp h
  obtain ⟨-, rfl⟩ := run_ensure_ok.mp he
  obtain rfl := run_modify_ok.mp h
  exact .nominate controller ledger targets hledger hroom rfl

/-- Chilling leaves every stash bonded. -/
theorem roleStep_chillStash (stash : A) (s : State A) : RoleStep s (chillStash stash s) := by
  refine .chill stash rfl fun a _ ha => ?_
  have hbonded := congrArg BondRecords.bonded (chillStash_bonds stash s)
  show (chillStash stash s).bonds.bonded a ≠ none
  rw [hbonded]
  exact ha

theorem roleStep_chill (h : (chill origin).run s = .ok u s') : RoleStep s s' := by
  unfold chill at h
  obtain ⟨controller, ledger, -, -, h⟩ := run_controller_ok h
  obtain rfl := run_modify_ok.mp h
  exact roleStep_chillStash ledger.stash s

theorem roleStep_chillOther {controller : A}
    (h : (chillOther origin controller).run s = .ok u s') : RoleStep s s' := by
  unfold chillOther at h
  obtain ⟨caller, -, h⟩ := run_signed_ok h
  obtain ⟨ledger, s₁, hl, h⟩ := run_bind_ok.mp h
  obtain ⟨-, rfl⟩ := run_okOr_ok.mp hl
  obtain ⟨_, s₂, hw, hm⟩ := run_bind_ok.mp h
  have hs₂ : s₂ = s := by
    have hsilent : Silent (when (caller ≠ controller) (ensureChillable s ledger)) :=
      fun t => preserves_when (silent_ensureChillable s ledger t)
    rw [← commit_of_ok hw]
    exact hsilent.commit_eq s
  rw [hs₂] at hm
  obtain rfl := run_modify_ok.mp hm
  exact roleStep_chillStash ledger.stash s

theorem roleStep_kick {who : List A} (h : (kick origin who).run s = .ok u s') :
    RoleStep s s' := by
  unfold kick at h
  obtain ⟨controller, ledger, -, -, h⟩ := run_controller_ok h
  obtain rfl := run_modify_ok.mp h
  exact .kick ledger.stash who rfl rfl

theorem RoleStep.of_keeps {c : StakingM A Unit} (h : Preserves (KeepsRoles s) c) :
    RoleStep s (c.commit s) := by
  obtain ⟨hroles, hbonded⟩ := h s (.refl s)
  exact .kept hroles hbonded

theorem RoleStep.of_run {c : StakingM A Unit} (hclean : FailsClean c)
    (h : ∀ u s', c.run s = .ok u s' → RoleStep s s') : RoleStep s (c.commit s) := by
  rcases hclean.commit_cases s with ⟨u, hrun⟩ | hsame
  · exact h u _ hrun
  · rw [hsame]
    exact .kept rfl fun _ ha => ha

variable (cfg) in
/-- **What a call does to the roles.** -/
theorem roleStep_dispatch (origin : Origin A) (c : Call A) (s : State A) :
    RoleStep s ((dispatch cfg origin c).commit s) := by
  cases c with
  | bond c n p => exact .of_keeps (keepsRoles_bond c n p)
  | bondExtra n => exact .of_keeps (keepsRoles_bondExtra n)
  | unbond n => exact .of_keeps (keepsRoles_unbond n)
  | withdrawUnbonded n =>
      exact .of_run (failsClean_withdrawUnbonded n) fun _ _ => roleStep_withdrawUnbonded
  | rebond n => exact .of_keeps (keepsRoles_rebond n)
  | setController c => exact .of_keeps (keepsRoles_setController c)
  | setPayee p => exact .of_keeps (keepsRoles_setPayee p)
  | validate p => exact .of_run (failsClean_validate p) fun _ _ => roleStep_validate
  | nominate ts => exact .of_run (failsClean_nominate ts) fun _ _ => roleStep_nominate
  | chill => exact .of_run failsClean_chill fun _ _ => roleStep_chill
  | chillOther c => exact .of_run (failsClean_chillOther c) fun _ _ => roleStep_chillOther
  | kick who => exact .of_run (failsClean_kick who) fun _ _ => roleStep_kick
  | forceUnstake a n =>
      have hclean : FailsClean (forceUnstake origin a n) :=
        failsClean_bind silent_ensureRoot fun _ => failsClean_kill a n
      exact .of_run hclean fun _ _ => roleStep_forceUnstake
  | reapStash a n =>
      have hclean : FailsClean (reapStash cfg origin a n) :=
        failsClean_bind silent_get fun _ =>
          failsClean_bind silent_ensure fun _ => failsClean_kill a n
      refine .of_run hclean fun u s' hrun => ?_
      have hreap : (reapStash cfg origin a n).run s = .ok u s' := hrun
      exact roleStep_reapStash hreap
  | payoutStakers a e => exact .of_keeps (keepsRoles_payoutStakers a e)
  | setHistoryDepth n => exact .of_keeps (keepsRoles_setHistoryDepth n)
  | setStakingLimits n v nc vc t => exact .of_keeps (keepsRoles_setStakingLimits n v nc vc t)
  | forceNoEras => exact .of_keeps (keepsRoles_forceEras _)
  | forceNewEra => exact .of_keeps (keepsRoles_forceEras _)
  | forceNewEraAlways => exact .of_keeps (keepsRoles_forceEras _)

end Calls

section Steps

variable {s : State A}

theorem newSession_roles (j : ℕ) (election : Election A) (s : State A) :
    (newSession cfg j election s).roles = s.roles := by
  have htrigger : ∀ exposures, (triggerNewEra cfg j exposures s).roles = s.roles := by
    intro exposures
    unfold triggerNewEra clearOldEra
    split <;> rfl
  have htry : (tryTriggerNewEra cfg j election s).1.roles = s.roles := by
    unfold tryTriggerNewEra
    split
    · rfl
    · split
      · dsimp only
        split <;> rfl
      · exact htrigger _
  have hforcing : ∀ r : State A × Bool, (endForcing r).roles = r.1.roles := by
    intro r
    unfold endForcing
    split <;> rfl
  unfold newSession
  split
  · exact htry
  · split
    · rw [hforcing, htry]
    · rfl

omit [DecidableEq A] in
theorem startSession_roles (j : ℕ) (s : State A) : (startSession j s).roles = s.roles := by
  rcases startSession_cases j s with ⟨hstarted, -⟩ | ⟨hsame, -⟩
  · rw [hstarted]
    rfl
  · rw [hsame]

theorem endSession_roles (i now : ℕ) (s : State A) :
    (endSession cfg i now s).roles = s.roles := by
  have hend : ∀ a : ActiveEraInfo, (endEra cfg a now s).roles = s.roles := by
    intro a
    unfold endEra
    split
    · rfl
    · exact mint_roles _ _ _ s
  rcases endSession_cases cfg i now s with ⟨a, -, -, hended⟩ | ⟨-, hsame⟩
  · rw [hended, hend]
  · rw [hsame]

variable (cfg) in
theorem doSlash_roles (stash : A) (value : ℕ) (s : State A) :
    (doSlash cfg stash value s).roles = s.roles := by
  unfold doSlash
  split
  · rfl
  · split
    · rfl
    · split <;> rfl

/-- An offence chills the stash or leaves the roles alone. -/
theorem roleStep_noteOffence (stash : A) (spans : SlashingSpans) (chills forces : Bool)
    (s : State A) : RoleStep s (noteOffence stash spans chills forces s) := by
  have hbonded : (noteOffence stash spans chills forces s).bonded = s.bonded :=
    congrArg BondRecords.bonded (noteOffence_bonds stash spans chills forces s)
  have hensure : ∀ t : State A, (ensureNewEra t).roles = t.roles := by
    intro t
    unfold ensureNewEra
    split <;> rfl
  let t : State A := { s with slashingSpans := Function.update s.slashingSpans stash (some spans) }
  have hsame : t.roles = s.roles := rfl
  have hroles : (noteOffence stash spans chills forces s).roles
      = (if chills then chillStash stash t else t).roles := by
    show (if forces then ensureNewEra (if chills then chillStash stash t else t)
      else if chills then chillStash stash t else t).roles = _
    split
    · exact hensure _
    · rfl
  cases chills with
  | true =>
      exact .chill stash (hroles.trans (roles_chillStash_congr hsame stash)) fun a _ ha =>
        hbonded ▸ ha
  | false => exact .kept hroles fun a ha => hbonded ▸ ha

variable (cfg) in
/-- **What a step does to the roles.** -/
theorem step_roles (s : State A) (act : Act A) : RoleStep s (step cfg s act) := by
  rcases step_bonds_cases cfg s act with hsame | ⟨origin, c, rfl⟩ | ⟨stash, value, rfl⟩
  · have hbonded : (step cfg s act).bonded = s.bonded := congrArg BondRecords.bonded hsame
    have hkept : (step cfg s act).roles = s.roles → RoleStep s (step cfg s act) :=
      fun hroles => .kept hroles fun a ha => hbonded ▸ ha
    cases act with
    | call origin c => exact roleStep_dispatch cfg origin c s
    | offence stash spans chills forces => exact roleStep_noteOffence stash spans chills forces s
    | slash stash value => exact hkept (doSlash_roles cfg stash value s)
    | genesisSessions first second =>
        apply hkept
        rw [step]
        unfold genesisSessions
        split
        · rfl
        · rw [startSession_roles, newSession_roles, newSession_roles]
          rfl
    | rotateSession now election =>
        apply hkept
        rw [step]
        unfold rotateSession
        split
        · rfl
        · rw [newSession_roles, startSession_roles, endSession_roles]
          rfl
    | onFinalize now =>
        apply hkept
        rw [step]
        unfold onFinalize
        split <;> rfl
    | rewardByIds points =>
        apply hkept
        rw [step]
        unfold rewardByIds
        split <;> rfl
    | outside => exact hkept rfl
  · exact roleStep_dispatch cfg origin c s
  · refine .kept (doSlash_roles cfg stash value s) fun a ha => ?_
    have hbonded : (doSlash cfg stash value s).bonded = s.bonded := by
      rcases doSlash_bonds_cases cfg stash value s with hsame | ⟨controller, l, -, -, hstored⟩
      · exact congrArg BondRecords.bonded hsame
      · exact congrArg BondRecords.bonded hstored
    show (doSlash cfg stash value s).bonded a ≠ none
    rw [hbonded]
    exact ha

/-- The roles are apart, bonded and counted. -/
def RolesSound (s : State A) : Prop := Roles (fun a => s.bonded a ≠ none) s.roles

/-- **Every step keeps the roles apart, bonded and counted.** -/
theorem RolesSound.step {horizon : ℕ} (hs : Sound horizon s.bonds) (h : RolesSound s)
    (act : Act A) : RolesSound (step cfg s act) := by
  have hstaked : ∀ controller l, s.ledger controller = some l → s.bonded l.stash ≠ none := by
    intro controller l hl
    have hindex : s.bonded l.stash = some controller := hs.paired.index_eq hl
    rw [hindex]
    exact Option.some_ne_none controller
  unfold RolesSound at h ⊢
  cases step_roles cfg s act with
  | kept hroles hbonded =>
      rw [hroles]
      exact h.mono hbonded
  | validate controller l prefs hledger hroom hs' =>
      have hbonded : (Staking.step cfg s act).bonded = s.bonded := by
        rw [hs', withRoles_validate]
        rfl
      rw [hbonded, hs']
      exact h.validate (hstaked controller l hledger) prefs
  | nominate controller l targets hledger hroom hs' =>
      have hbonded : (Staking.step cfg s act).bonded = s.bonded := by
        rw [hs', withRoles_nominate]
        rfl
      rw [hbonded, hs']
      exact h.nominate (hstaked controller l hledger) targets
  | chill stash hroles hbonded =>
      rw [hroles]
      exact (h.chillStash stash).mono fun a ha => hbonded a ha.1 ha.2
  | kick validator who hroles hbonded =>
      rw [hroles, hbonded]
      exact h.kick validator who

theorem doRemoveValidator_counter_le (who : A) (s : State A) :
    (doRemoveValidator who s).counterForValidators ≤ s.counterForValidators := by
  unfold doRemoveValidator
  split
  · exact Nat.sub_le _ 1
  · exact Nat.le_refl _

theorem doRemoveNominator_counter_le (who : A) (s : State A) :
    (doRemoveNominator who s).counterForNominators ≤ s.counterForNominators := by
  unfold doRemoveNominator
  split
  · exact Nat.sub_le _ 1
  · exact Nat.le_refl _

/-- A counter that counts a new key, for which there was room, is within its maximum. -/
theorem counter_le_of_room {present : Prop} [Decidable present] {count : ℕ} {maximum : Option ℕ}
    (hroom : present ∨ ∀ m ∈ maximum, count < m)
    (hraised : count < if present then count else count + 1) :
    ∀ m ∈ maximum, (if present then count else count + 1) ≤ m := by
  intro m hm
  split at hraised
  · omega
  · rename_i hnew
    rw [if_neg hnew]
    exact hroom.resolve_left hnew m hm

/-- A counter that a step raises is below its maximum before it. -/
theorem RoleStep.counters {s' : State A} (h : RoleStep s s') :
    (s.counterForValidators < s'.counterForValidators →
        ∀ maxValidators ∈ s.maxValidatorsCount, s'.counterForValidators ≤ maxValidators) ∧
      (s.counterForNominators < s'.counterForNominators →
        ∀ maxNominators ∈ s.maxNominatorsCount, s'.counterForNominators ≤ maxNominators) := by
  -- a counter that is not raised is no concern
  have hlower : ∀ {n m : ℕ} {maximum : Option ℕ}, m ≤ n → n < m → ∀ x ∈ maximum, m ≤ x :=
    fun hle hlt => absurd hlt (Nat.not_lt.mpr hle)
  cases h with
  | kept hroles _ =>
      have hcv : s'.counterForValidators = s.counterForValidators :=
        congrArg RoleRecords.counterForValidators hroles
      have hcn : s'.counterForNominators = s.counterForNominators :=
        congrArg RoleRecords.counterForNominators hroles
      exact ⟨hlower hcv.le, hlower hcn.le⟩
  | validate controller l prefs _ hroom hs' =>
      obtain ⟨hvalidators, hcounter⟩ := doRemoveNominator_rest l.stash s
      have hcv : s'.counterForValidators
          = if l.stash ∈ s.validators then s.counterForValidators
            else s.counterForValidators + 1 := by
        rw [hs', doAddValidator]
        simp only [hvalidators, hcounter]
      have hcn : s'.counterForNominators ≤ s.counterForNominators := by
        rw [hs']
        exact doRemoveNominator_counter_le l.stash s
      refine ⟨fun hraised => ?_, hlower hcn⟩
      rw [hcv] at hraised ⊢
      exact counter_le_of_room hroom hraised
  | nominate controller l targets _ hroom hs' =>
      obtain ⟨hnominators, hcounter⟩ := doRemoveValidator_rest l.stash s
      have hcn : s'.counterForNominators
          = if l.stash ∈ s.nominators then s.counterForNominators
            else s.counterForNominators + 1 := by
        rw [hs', doAddNominator]
        simp only [hnominators, hcounter]
      have hcv : s'.counterForValidators ≤ s.counterForValidators := by
        rw [hs']
        exact doRemoveValidator_counter_le l.stash s
      refine ⟨hlower hcv, fun hraised => ?_⟩
      rw [hcn] at hraised ⊢
      exact counter_le_of_room hroom hraised
  | chill stash hroles _ =>
      have hcv : s'.counterForValidators = (chillStash stash s).counterForValidators :=
        congrArg RoleRecords.counterForValidators hroles
      have hcn : s'.counterForNominators = (chillStash stash s).counterForNominators :=
        congrArg RoleRecords.counterForNominators hroles
      have hvalidators : (chillStash stash s).counterForValidators ≤ s.counterForValidators :=
        (doRemoveNominator_rest stash (doRemoveValidator stash s)).2.le.trans
          (doRemoveValidator_counter_le stash s)
      have hnominators : (chillStash stash s).counterForNominators ≤ s.counterForNominators :=
        (doRemoveNominator_counter_le stash (doRemoveValidator stash s)).trans
          (doRemoveValidator_rest stash s).2.le
      exact ⟨hlower (hcv.le.trans hvalidators), hlower (hcn.le.trans hnominators)⟩
  | kick validator who hroles _ =>
      have hcv : s'.counterForValidators = s.counterForValidators :=
        congrArg RoleRecords.counterForValidators hroles
      have hcn : s'.counterForNominators = s.counterForNominators :=
        congrArg RoleRecords.counterForNominators hroles
      exact ⟨hlower hcv.le, hlower hcn.le⟩

end Steps

/-! ## Runs -/

omit [DecidableEq A] in
theorem Genesis.rolesSound {s : State A} (hs : Genesis s) : RolesSound s where
  disjoint a ha := by
    have hempty : s.roles.validators = ∅ := hs.validators
    rw [hempty] at ha
    exact absurd ha (AList.notMem_empty a)
  staked a ha := by
    have hvalidators : s.roles.validators = ∅ := hs.validators
    have hnominators : s.roles.nominators = ∅ := hs.nominators
    rw [hvalidators, hnominators] at ha
    exact absurd ha (by simp)
  validators_counted := by
    show s.counterForValidators = size s.validators
    rw [hs.counterForValidators, hs.validators, size_empty]
  nominators_counted := by
    show s.counterForNominators = size s.nominators
    rw [hs.counterForNominators, hs.nominators, size_empty]

variable (cfg) in
/-- **The roles are sound after every run**: no stash validates and nominates, whoever has a role
is a bonded stash with a ledger, the counters are the sizes of the maps, and the next step raises
neither above its maximum. -/
theorem roles_sound {s₀ : State A} (hs₀ : Genesis s₀) (acts : List (Act A)) :
    let s := Machine.run (step cfg) s₀ acts
    (∀ a, ¬ (a ∈ s.validators ∧ a ∈ s.nominators)) ∧
      (∀ a, a ∈ s.validators ∨ a ∈ s.nominators → ∃ controller l,
        s.bonded a = some controller ∧ s.ledger controller = some l ∧ l.stash = a) ∧
      s.counterForValidators = size s.validators ∧
      s.counterForNominators = size s.nominators ∧
      ∀ act, let s' := step cfg s act
        (s.counterForValidators < s'.counterForValidators →
          ∀ maxValidators ∈ s.maxValidatorsCount, s'.counterForValidators ≤ maxValidators) ∧
        (s.counterForNominators < s'.counterForNominators →
          ∀ maxNominators ∈ s.maxNominatorsCount, s'.counterForNominators ≤ maxNominators) := by
  intro s
  have hinvariant : Sound (s.horizon cfg) s.bonds ∧ RolesSound s := by
    refine Machine.run_invariant_always
      (P := fun t : State A => Sound (t.horizon cfg) t.bonds ∧ RolesSound t)
      (fun t act ht => ⟨ht.1.step act, ht.2.step ht.1 act⟩) ?_ acts
    exact ⟨hs₀.consistent.1, hs₀.rolesSound⟩
  obtain ⟨hsound, hroles⟩ := hinvariant
  refine ⟨fun a ha => hroles.disjoint a ha.1 ha.2, fun a ha => ?_, hroles.validators_counted,
    hroles.nominators_counted, fun act => (step_roles cfg s act).counters⟩
  obtain ⟨controller, hbonded⟩ := Option.ne_none_iff_exists'.mp (hroles.staked a ha)
  obtain ⟨l, hl, hstash⟩ := hsound.paired.lookup hbonded
  exact ⟨controller, l, hbonded, hl, hstash⟩

/-- A stash validates and then nominates instead, and another one is refused for want of room. -/
def changedRole : List (Act ℕ) :=
  [.call (.signed 1) (.bond 2 1000 .Stash), .call (.signed 3) (.bond 4 1000 .Stash),
    .call .root (.setStakingLimits 0 0 (some 1) (some 1) none),
    .call (.signed 2) (.validate .default), .call (.signed 2) (.nominate [1]),
    .call (.signed 4) (.nominate [1])]

theorem roles_sound_changedRole :
    let s := Machine.run (step (lockingConfig 1)) sampleGenesis changedRole
    (∀ a, ¬ (a ∈ s.validators ∧ a ∈ s.nominators)) ∧ s.nominators.keys = [1] ∧
      s.counterForNominators = 1 := by
  obtain ⟨hdisjoint, -⟩ :=
    roles_sound (lockingConfig 1) sampleGenesis_genesis changedRole
  exact ⟨hdisjoint, by decide +kernel, by decide +kernel⟩

end Setheum.Staking
