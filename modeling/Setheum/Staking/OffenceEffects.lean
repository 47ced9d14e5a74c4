import Setheum.Staking.Clock
import Setheum.Staking.Offences
import Setheum.Staking.SpanRecords

/-!
# What the pipeline of offences does to the staking pallet

Whatever the pipeline does is, to the staking pallet, a run of its own model: a report chills stashes
and forces eras, a slash that is applied burns funds and deposits rewards. Slashes that an era
applies come between the start of its first session and the planning of the next one, which does
not look at funds, so they may as well come after it.

* `newSession_funds` — planning a session and moving funds commute.
* `offenceStep_staking`, `offences_refine_staking` — every step and every run of the pipeline is a
  run of the staking pallet.
-/

set_option autoImplicit false

namespace Setheum.Staking

open Machine Checked

variable {A : Type} [DecidableEq A] {cfg : OffenceConfig A}

/-! ## Moving funds -/

/-- A step that burns or deposits funds. -/
def Act.MovesFunds : Act A → Prop
  | .slash _ _ | .outside _ _ _ => True
  | _ => False

/-- A step that a report leads to. -/
def Act.IsOffence : Act A → Prop
  | .offence _ _ _ _ => True
  | _ => False

/-- The funds are those of another state. -/
def State.withFunds (s f : State A) : State A :=
  { s with
    native := f.native
    ledger := f.ledger
    stakingLock := f.stakingLock
    setter := f.setter
    system := f.system }

section Planning

variable (cfg : Config A)

theorem triggerNewEra_withFunds (j : ℕ) (exposures : List (A × Exposure A)) (s f : State A) :
    triggerNewEra cfg j exposures (s.withFunds f)
      = (triggerNewEra cfg j exposures s).withFunds f := by
  have hclear : ∀ n (t : State A), clearOldEra n (t.withFunds f) = (clearOldEra n t).withFunds f := by
    intro n t
    unfold clearOldEra
    rw [show (t.withFunds f).historyDepth = t.historyDepth from rfl]
    split <;> rfl
  unfold triggerNewEra
  rw [show planEra (s.withFunds f).newPlannedEra j (s.withFunds f)
      = (planEra s.newPlannedEra j s).withFunds f from rfl,
    show (s.withFunds f).newPlannedEra = s.newPlannedEra from rfl, hclear]
  rfl

theorem tryTriggerNewEra_withFunds (j : ℕ) (election : Election A) (s f : State A) :
    tryTriggerNewEra cfg j election (s.withFunds f)
      = ((tryTriggerNewEra cfg j election s).1.withFunds f,
          (tryTriggerNewEra cfg j election s).2) := by
  unfold tryTriggerNewEra
  rw [show (s.withFunds f).minimumValidatorCount = s.minimumValidatorCount from rfl,
    show (s.withFunds f).currentEra = s.currentEra from rfl]
  cases election with
  | none => rfl
  | some supports =>
      dsimp only
      split
      · split <;> rfl
      · rw [triggerNewEra_withFunds]

theorem newSession_withFunds (j : ℕ) (election : Election A) (s f : State A) :
    newSession cfg j election (s.withFunds f) = (newSession cfg j election s).withFunds f := by
  have hforcing : ∀ r : State A × Bool,
      endForcing (r.1.withFunds f, r.2) = (endForcing r).withFunds f := by
    intro r
    unfold endForcing
    rw [show (r.1.withFunds f).forceEra = r.1.forceEra from rfl]
    split <;> rfl
  unfold newSession
  rw [show (s.withFunds f).currentEra = s.currentEra from rfl,
    show (s.withFunds f).forceEra = s.forceEra from rfl,
    show (s.withFunds f).erasStartSessionIndex = s.erasStartSessionIndex from rfl,
    tryTriggerNewEra_withFunds]
  split
  · rfl
  · split
    · exact hforcing _
    · rfl

theorem newSession_bonded (j : ℕ) (election : Election A) (s : State A) :
    (newSession cfg j election s).bonded = s.bonded := by
  have htry : (tryTriggerNewEra cfg j election s).1.bonded = s.bonded := by
    unfold tryTriggerNewEra
    split
    · rfl
    · split
      · split <;> rfl
      · unfold triggerNewEra clearOldEra
        dsimp only
        split <;> rfl
  unfold newSession
  split
  · exact htry
  · split
    · unfold endForcing
      split <;> exact htry
    · rfl

theorem doSlash_withFunds (stash : A) (value : ℕ) {s t : State A} (hbonded : t.bonded = s.bonded) :
    doSlash cfg stash value (t.withFunds s) = t.withFunds (doSlash cfg stash value s) := by
  unfold doSlash
  rw [show (t.withFunds s).bonded = s.bonded from hbonded,
    show (t.withFunds s).ledger = s.ledger from rfl]
  repeat' split
  all_goals rfl

/-- **Planning a session and moving funds commute.** -/
theorem newSession_step (j : ℕ) (election : Election A) (s : State A) {act : Act A}
    (hact : act.MovesFunds) :
    newSession cfg j election (step cfg s act) = step cfg (newSession cfg j election s) act := by
  have hsame : newSession cfg j election s = (newSession cfg j election s).withFunds s :=
    newSession_withFunds cfg j election s s
  cases act with
  | slash stash value =>
      have hslash : doSlash cfg stash value s = s.withFunds (doSlash cfg stash value s) :=
        doSlash_withFunds cfg stash value (s := s) rfl
      have hbonded := newSession_bonded cfg j election s
      rw [step, step, hslash, newSession_withFunds, hsame,
        doSlash_withFunds cfg stash value hbonded]
      rfl
  | outside native setter system =>
      exact (newSession_withFunds cfg j election s { s with native, setter, system }).trans
        (by rw [hsame]; rfl)
  | _ => exact hact.elim

theorem newSession_funds (j : ℕ) (election : Election A) {s t : State A}
    (h : Reaches (step cfg) Act.MovesFunds s t) :
    Reaches (step cfg) Act.MovesFunds (newSession cfg j election s)
      (newSession cfg j election t) :=
  h.invariant (P := fun t => Reaches (step cfg) Act.MovesFunds (newSession cfg j election s)
      (newSession cfg j election t))
    (fun t act ht hact => ht.trans (by
      rw [newSession_step cfg j election t hact]
      exact .single hact _)) (.refl _)

end Planning

/-! ## Applying a slash -/

variable (cfg) in
theorem mint_funds (allowed : Bool) (who : A) (amount : ℕ) (s : State A) :
    Reaches (step cfg.toConfig) Act.MovesFunds s (mint allowed who amount s) := by
  unfold mint
  split
  · exact .single (l := Act.outside _ s.setter s.system) trivial s
  · exact .refl s

/-- What `do_slash` adds up besides, it does not depend on. -/
theorem collectSlash_snd (c : Collected × State A) (x : A × ℕ) :
    (collectSlash cfg c x).2 = doSlash cfg.toConfig x.1 x.2 c.2 := by
  obtain ⟨collected, s⟩ := c
  obtain ⟨stash, value⟩ := x
  unfold collectSlash doSlash
  dsimp only
  cases s.bonded stash with
  | none => rfl
  | some controller =>
      dsimp only
      cases s.ledger controller with
      | none => rfl
      | some ledger =>
          dsimp only
          split <;> rfl

variable (cfg) in
theorem applySlash_funds (slash : PendingSlash A) (s : State A) :
    Reaches (step cfg.toConfig) Act.MovesFunds s (applySlash cfg slash s) := by
  have hcollect : Reaches (step cfg.toConfig) Act.MovesFunds s
      (slash.targets.foldl (collectSlash cfg) (⟨slash.payout, 0⟩, s)).2 :=
    Reaches.foldl_map (f := collectSlash cfg) Prod.snd (fun c x _ => by
      rw [collectSlash_snd]
      exact .single (l := Act.slash x.1 x.2) trivial c.2) (⟨slash.payout, 0⟩, s)
  have hpay : ∀ (collected : Collected) (t : State A), Reaches (step cfg.toConfig) Act.MovesFunds t
      (payReporters cfg collected slash.reporters t) := by
    intro collected t
    unfold payReporters onUnbalanced
    split
    · exact mint_funds cfg _ _ _ t
    · refine .trans ?_ (mint_funds cfg _ _ _ _)
      exact Reaches.foldl_map id (fun u reporter _ => mint_funds cfg _ _ _ u) t
  exact hcollect.trans (hpay _ _)

variable (cfg) in
theorem applyOf_funds (era now : ℕ) (s : OffenceState A) (slash : PendingSlash A) :
    Reaches (step cfg.toConfig) Act.MovesFunds s.staking (applyOf cfg era now s slash).staking :=
  applySlash_funds cfg slash s.staking

variable (cfg) in
theorem applyEra_funds (now : ℕ) (s : OffenceState A) (era : ℕ) :
    Reaches (step cfg.toConfig) Act.MovesFunds s.staking (applyEra cfg now s era).staking :=
  Reaches.foldl_map OffenceState.staking (fun t slash _ => applyOf_funds cfg era now t slash)
    { s with unappliedSlashes := Function.update s.unappliedSlashes era [] }

/-! ## Eras and sessions -/

omit [DecidableEq A] in
variable (cfg) in
theorem bondEra_staking (activeEra startSession : ℕ) (s : OffenceState A) :
    (bondEra cfg activeEra startSession s).staking = s.staking := by
  have hclear : ∀ (eras : List (ℕ × ℕ)) (t : SlashState A),
      (eras.foldl (fun t e => clearEraMetadata e.1 t) t).staking = t.staking := by
    intro eras
    induction eras with
    | nil => exact fun _ => rfl
    | cons e eras ih => exact fun t => ih (clearEraMetadata e.1 t)
  unfold bondEra
  dsimp only
  split
  · exact hclear _ _
  · rfl

variable (cfg) in
theorem startEraOf_funds (j : ℕ) (s : OffenceState A) :
    Reaches (step cfg.toConfig) Act.MovesFunds (startEra s.staking)
      (startEraOf cfg j s).staking := by
  have hbonded := bondEra_staking cfg s.staking.nextActiveEra j (s.onStaking startEra)
  have happly : ∀ (n : ℕ) (t : OffenceState A), Reaches (step cfg.toConfig) Act.MovesFunds t.staking
      (applyUnappliedSlashes cfg n t).staking := by
    intro n t
    unfold applyUnappliedSlashes
    split
    · exact .refl _
    · exact Reaches.foldl_map OffenceState.staking (fun u era _ => applyEra_funds cfg n u era) t
  unfold startEraOf
  have h := happly s.staking.nextActiveEra
    (bondEra cfg s.staking.nextActiveEra j (s.onStaking startEra))
  rwa [hbonded] at h

variable (cfg) in
/-- **A session starts the next era exactly when that is due**, and an era that starts may apply
slashes. -/
theorem startSessionOf_cases (j : ℕ) (s : OffenceState A) :
    (startSessionOf cfg j s = startEraOf cfg j s ∧ startSession j s.staking = startEra s.staking ∧
        ∃ k, s.staking.erasStartSessionIndex s.staking.nextActiveEra = some k ∧ k ≤ j) ∨
      (startSessionOf cfg j s = s ∧ startSession j s.staking = s.staking) := by
  unfold startSessionOf startSession
  cases hstart : s.staking.erasStartSessionIndex s.staking.nextActiveEra with
  | none => exact .inr ⟨rfl, rfl⟩
  | some k =>
      dsimp only
      split
      · rename_i hle
        exact .inl ⟨rfl, rfl, k, rfl, hle⟩
      · exact .inr ⟨rfl, rfl⟩

variable (cfg) in
theorem startSessionOf_funds (j : ℕ) (s : OffenceState A) :
    Reaches (step cfg.toConfig) Act.MovesFunds (startSession j s.staking)
      (startSessionOf cfg j s).staking := by
  rcases startSessionOf_cases cfg j s with ⟨hof, hstart, -⟩ | ⟨hof, hsame⟩
  · rw [hof, hstart]
    exact startEraOf_funds cfg j s
  · rw [hof, hsame]
    exact .refl _

/-! ## Reports -/

variable (cfg) in
theorem offend_staking (slashEra activeEra : ℕ) (s : OffenceState A)
    (x : OffenceDetails A × Perbill) :
    Reaches (step cfg.toConfig) (fun act => act.IsOffence ∨ act.MovesFunds) s.staking
      (offend cfg slashEra activeEra s x).staking := by
  have hcompute : ∀ (params : SlashParams A) (disabled : Bool) (t : SlashState A),
      Reaches (step cfg.toConfig) (fun act => act.IsOffence ∨ act.MovesFunds) t.staking
        (computeSlash params disabled t).2.staking := by
    intro params disabled t
    obtain ⟨acts, hacts, hrun⟩ := computeSlash_staking cfg.toConfig params disabled t
    refine ⟨acts, fun act hact => ?_, hrun⟩
    obtain ⟨stash, spans, chills, forces, rfl⟩ := hacts act hact
    exact .inl trivial
  have hsettle : ∀ (slash : PendingSlash A) (t : OffenceState A),
      Reaches (step cfg.toConfig) (fun act => act.IsOffence ∨ act.MovesFunds) t.staking
        (settleSlash cfg activeEra slash t).staking := by
    intro slash t
    unfold settleSlash
    dsimp only
    split
    · exact (applyOf_funds cfg activeEra activeEra _ slash).mono fun _ => .inr
    · exact .refl _
  unfold offend
  dsimp only
  split
  · exact .refl _
  · have h := hcompute ⟨x.1.stash, x.2, x.1.exposure, slashEra, activeEra - cfg.bondingDuration,
      activeEra, s.slashRewardFraction⟩ x.1.disabled s.slashing
    generalize computeSlash _ x.1.disabled s.slashing = r at h ⊢
    obtain ⟨unapplied, slashing⟩ := r
    cases unapplied with
    | none => exact h
    | some unapplied => exact h.trans (hsettle ⟨unapplied, x.1.reporters⟩ { s with slashing })

variable (cfg) in
theorem onOffence_staking (offenders : List (OffenceDetails A)) (slashFraction : List Perbill)
    (slashSession : ℕ) (s : OffenceState A) :
    Reaches (step cfg.toConfig) (fun act => act.IsOffence ∨ act.MovesFunds) s.staking
      (onOffence cfg offenders slashFraction slashSession s).staking := by
  unfold onOffence
  cases s.staking.activeEra with
  | none => exact .refl _
  | some activeEra =>
      dsimp only
      cases slashEra s activeEra.index slashSession with
      | none => exact .refl _
      | some e =>
          exact Reaches.foldl_map OffenceState.staking
            (fun t x _ => offend_staking cfg e activeEra.index t x)
            { s with
              earliestUnappliedSlash :=
                some (s.earliestUnappliedSlash.getD activeEra.index) }

omit [DecidableEq A] in
/-- What a call that cancels slashes leaves alone. -/
theorem cancelDeferredSlash_frame {authorized : Bool} {era : ℕ} {slashIndices : List ℕ}
    {s s' : OffenceState A} (h : cancelDeferredSlash authorized era slashIndices s = .ok s') :
    s'.staking = s.staking ∧ s'.bondedEras = s.bondedEras := by
  unfold cancelDeferredSlash at h
  obtain ⟨-, -, h⟩ := of_bind_eq_ok h
  obtain ⟨-, -, h⟩ := of_bind_eq_ok h
  obtain ⟨-, -, h⟩ := of_bind_eq_ok h
  obtain ⟨-, -, h⟩ := of_bind_eq_ok h
  obtain ⟨kept, -, h⟩ := of_bind_eq_ok h
  cases h
  exact ⟨rfl, rfl⟩

/-! ## What reports and funds leave alone -/

theorem eras_of_reaches {cfg : Config A} {s t : State A}
    (h : Reaches (step cfg) (fun act => act.IsOffence ∨ act.MovesFunds) s t) : t.eras = s.eras := by
  refine h.invariant (P := fun t => t.eras = s.eras) (fun t act ht hact => ?_) rfl
  cases act with
  | slash stash value => exact (doSlash_eras cfg stash value t).trans ht
  | offence stash spans chills forces =>
      exact (noteOffence_eras stash spans chills forces t).trans ht
  | outside => exact ht
  | _ => exact (hact.elim id id).elim

theorem eras_of_funds {cfg : Config A} {s t : State A}
    (h : Reaches (step cfg) Act.MovesFunds s t) : t.eras = s.eras :=
  eras_of_reaches (h.mono fun _ => .inr)

/-! ## Steps -/

variable (cfg) in
theorem genesisSessionsOf_staking (first second : Election A) (s : OffenceState A) :
    Reaches (step cfg.toConfig) Act.MovesFunds (genesisSessions cfg.toConfig first second s.staking)
      (genesisSessionsOf cfg first second s).staking := by
  unfold genesisSessionsOf genesisSessions
  cases s.staking.session with
  | some i => exact .refl _
  | none =>
      exact startSessionOf_funds cfg 0 (s.onStaking fun t => newSession cfg.toConfig 1 second
        (newSession cfg.toConfig 0 first { t with session := some 0 }))

variable (cfg) in
theorem rotateSessionOf_staking (now : ℕ) (election : Election A) (s : OffenceState A) :
    Reaches (step cfg.toConfig) Act.MovesFunds (rotateSession cfg.toConfig now election s.staking)
      (rotateSessionOf cfg now election s).staking := by
  unfold rotateSessionOf rotateSession
  cases s.staking.session with
  | none => exact .refl _
  | some i =>
      exact newSession_funds cfg.toConfig (i + 2) election
        (startSessionOf_funds cfg (i + 1) (s.onStaking fun t =>
          endSession cfg.toConfig i now { t with session := some (i + 1) }))

variable (cfg) in
/-- **To the staking pallet, every step of the pipeline is a run of its own.** -/
theorem offenceStep_staking (s : OffenceState A) (act : OffenceAct A) :
    Reaches (step cfg.toConfig) (fun _ => True) s.staking (offenceStep cfg s act).staking := by
  cases act with
  | call origin c => exact .single (l := Act.call origin c) trivial s.staking
  | genesisSessions first second =>
      exact (Reaches.single (l := Act.genesisSessions first second) trivial s.staking).trans
        ((genesisSessionsOf_staking cfg first second s).mono fun _ _ => trivial)
  | rotateSession now election =>
      exact (Reaches.single (l := Act.rotateSession now election) trivial s.staking).trans
        ((rotateSessionOf_staking cfg now election s).mono fun _ _ => trivial)
  | onFinalize now => exact .single (l := Act.onFinalize now) trivial s.staking
  | rewardByIds points => exact .single (l := Act.rewardByIds points) trivial s.staking
  | offence offenders slashFraction slashSession =>
      exact (onOffence_staking cfg offenders slashFraction slashSession s).mono fun _ _ => trivial
  | cancelDeferredSlash authorized era slashIndices =>
      have hcancel : (offenceStep cfg s
          (.cancelDeferredSlash authorized era slashIndices)).staking = s.staking := by
        unfold offenceStep
        dsimp only
        split
        · rename_i s' hok
          exact (cancelDeferredSlash_frame hok).1
        · rfl
      rw [hcancel]
      exact .refl _
  | setInvulnerables invulnerables => exact .refl _
  | outside native setter system =>
      exact .single (l := Act.outside native setter system) trivial s.staking

variable (cfg) in
/-- **Every run of the pipeline is, to the staking pallet, a run of its own.** -/
theorem offences_refine_staking (s : OffenceState A) (acts : List (OffenceAct A)) :
    Reaches (step cfg.toConfig) (fun _ => True) s.staking
      (run (offenceStep cfg) s acts).staking :=
  Reaches.run_map OffenceState.staking (offenceStep_staking cfg) s acts

end Setheum.Staking
