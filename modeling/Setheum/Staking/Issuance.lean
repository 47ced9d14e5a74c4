import Setheum.Lib.Halving
import Setheum.Staking.Clock

/-!
# The native issuance of eras

The native issuance of an era is meant to follow a halving schedule in the index of the era:
`SetheumHalving` cuts the initial issuance in half after every halving interval. The adaptor that
`end_era` calls never sees the index. It hands over another amount, which stands in the source
under a name that is declared nowhere, so the schedule is met only where that amount agrees with
it.

* `created_eq_iff` — when the native amount created at the end of an era is the scheduled one.
* `issuance_of_run` — a run whose eras all agree creates exactly the scheduled amounts, which never
  rise and add up to at most two halving intervals at the initial issuance.
* `schedule_missed` — whatever the undeclared name stands for, some run misses the schedule.
-/

set_option autoImplicit false

namespace Setheum.Staking

variable {A : Type} [DecidableEq A] {cfg : Config A}

/-- The native amount created at the end of an era: the validators' part and the rest. -/
def EraPayout.created (p : EraPayout) : ℕ := p.nativePayout + p.nativeRest

/-- The payouts so far are those of the eras that have ended, each with the scheduled native
amount; the latest comes first. -/
def OnSchedule (cfg : Config A) (s : State A) : Prop :=
  s.eraPayouts.map (fun p => (p.era, p.created))
    = ((List.range (endedEras s.activeEra)).map fun i => (i, nativeIssuance cfg i)).reverse

/-- The amount `n` that `era_payout` works with gives the scheduled issuance of era `i`: it does not
exceed the issuance of its own halving period, which is that of the era, or it exceeds it and is
itself the issuance of the era. -/
def Agrees (cfg : Config A) (n i : ℕ) : Prop :=
  (n ≤ nativeIssuance cfg n ∧ nativeIssuance cfg n = nativeIssuance cfg i) ∨
    (nativeIssuance cfg n < n ∧ n = nativeIssuance cfg i)

instance (n i : ℕ) : Decidable (Agrees cfg n i) :=
  inferInstanceAs (Decidable ((n ≤ nativeIssuance cfg n ∧
    nativeIssuance cfg n = nativeIssuance cfg i) ∨
    (nativeIssuance cfg n < n ∧ n = nativeIssuance cfg i)))

/-- The amount that the end of an era hands to the issuance. -/
def handedOver (cfg : Config A) (s : State A) (a : ActiveEraInfo) (start now : ℕ) : ℕ :=
  cfg.nativeIssuancePayout (s.erasTotalStake a.index) s.native.issuance (now - start)

/-- A session that ends the active era finds its start set, and the amount it hands over agrees
with the index of the era. -/
def Scheduled (cfg : Config A) (s : State A) : Act A → Prop
  | .rotateSession now _ => ∀ a ∈ s.activeEra, ∀ i ∈ s.session,
      s.erasStartSessionIndex (a.index + 1) = some (i + 1) →
        ∃ start, a.start = some start ∧ Agrees cfg (handedOver cfg s a start now) a.index
  | _ => True

omit [DecidableEq A] in
theorem nativeIssuance_eq (i : ℕ) :
    nativeIssuance cfg i = Halving.scheduled cfg.initialIssuance cfg.halvingInterval 64 i := rfl

omit [DecidableEq A] in
variable (cfg) in
/-- **When the created amount is the scheduled one.** -/
theorem created_eq_iff (totalStaked totalIssuance eraDuration i : ℕ) :
    (eraPayout cfg totalStaked totalIssuance eraDuration).2.1
        + (eraPayout cfg totalStaked totalIssuance eraDuration).2.2 = nativeIssuance cfg i ↔
      Agrees cfg (cfg.nativeIssuancePayout totalStaked totalIssuance eraDuration) i := by
  unfold eraPayout Agrees
  dsimp only
  generalize cfg.nativeIssuancePayout totalStaked totalIssuance eraDuration = n
  omega

omit [DecidableEq A] in
theorem Genesis.onSchedule {s : State A} (hs : Genesis s) : OnSchedule cfg s := by
  unfold OnSchedule
  rw [hs.eraPayouts, hs.activeEra]
  rfl

/-- One step. -/
theorem OnSchedule.step {s : State A} {act : Act A} (hs : OnSchedule cfg s)
    (hclock : Clocked s.eras) (hact : Scheduled cfg s act) :
    OnSchedule cfg (step cfg s act) := by
  obtain ⟨-, htick⟩ := hclock.step cfg act
  generalize Staking.step cfg s act = s' at htick ⊢
  cases htick with
  | quiet hended hpayouts =>
      unfold OnSchedule
      rw [hpayouts, hended]
      exact hs
  | ends i now election a hrotate hsession hactive hdue hnext hpayouts =>
      subst hrotate
      obtain ⟨start, hstart, hagrees⟩ := hact a hactive i hsession hdue
      have hcreated := (created_eq_iff cfg (s.erasTotalStake a.index) s.native.issuance
        (now - start) a.index).mpr hagrees
      have hend : (endEra cfg a now s).eraPayouts
          = ⟨a.index, (eraPayout cfg (s.erasTotalStake a.index) s.native.issuance
              (now - start)).1,
            (eraPayout cfg (s.erasTotalStake a.index) s.native.issuance (now - start)).2.1,
            (eraPayout cfg (s.erasTotalStake a.index) s.native.issuance (now - start)).2.2⟩
            :: s.eraPayouts := by
        simp only [endEra, hstart, recordPayout]
      unfold OnSchedule at hs ⊢
      rw [hpayouts, hend, hnext, List.map_cons, hs, hactive]
      simp only [endedEras, EraPayout.created, hcreated, List.range_succ, List.map_append,
        List.map_cons, List.map_nil, List.reverse_append, List.reverse_cons, List.reverse_nil,
        List.nil_append, List.cons_append]

/-- The amounts created so far, the latest first. -/
def createdAmounts (s : State A) : List ℕ := s.eraPayouts.map EraPayout.created

omit [DecidableEq A] in
theorem OnSchedule.createdAmounts_eq {s : State A} (hs : OnSchedule cfg s) :
    createdAmounts s = ((List.range (endedEras s.activeEra)).map (nativeIssuance cfg)).reverse := by
  have hsnd := congrArg (List.map Prod.snd) hs
  rw [List.map_map, List.map_reverse, List.map_map] at hsnd
  exact hsnd

omit [DecidableEq A] in
/-- The scheduled amounts never rise: the latest is the least. -/
theorem OnSchedule.antitone {s : State A} (hs : OnSchedule cfg s) :
    (createdAmounts s).Pairwise (· ≤ ·) := by
  rw [hs.createdAmounts_eq, List.pairwise_reverse, List.pairwise_map]
  refine List.pairwise_lt_range.imp fun {i j} hij => ?_
  rw [nativeIssuance_eq, nativeIssuance_eq]
  exact Halving.scheduled_antitone (Nat.le_of_lt hij)

omit [DecidableEq A] in
/-- The scheduled amounts add up to at most two halving intervals at the initial issuance. -/
theorem OnSchedule.total_le {s : State A} (hs : OnSchedule cfg s)
    (hinterval : 0 < cfg.halvingInterval) :
    (createdAmounts s).sum ≤ 2 * cfg.halvingInterval * cfg.initialIssuance := by
  rw [hs.createdAmounts_eq, List.sum_reverse]
  exact Halving.sum_scheduled_le hinterval List.nodup_range

/-- **Over every run of eras that agree with the amounts handed over, the native issuance follows
the halving schedule**: the eras that ended created exactly the scheduled amounts, which never rise
and add up to at most two halving intervals at the initial issuance. -/
theorem issuance_of_run (hinterval : 0 < cfg.halvingInterval) {s : State A} (hs : Genesis s)
    {acts : List (Act A)} (h : Machine.StepsMeet (step cfg) (Scheduled cfg) s acts) :
    OnSchedule cfg (Machine.run (step cfg) s acts) ∧
      (createdAmounts (Machine.run (step cfg) s acts)).Pairwise (· ≤ ·) ∧
      (createdAmounts (Machine.run (step cfg) s acts)).sum
        ≤ 2 * cfg.halvingInterval * cfg.initialIssuance := by
  have hrun : Clocked (Machine.run (step cfg) s acts).eras ∧
      OnSchedule cfg (Machine.run (step cfg) s acts) := by
    refine Machine.run_invariant (P := fun t => Clocked t.eras ∧ OnSchedule cfg t) ?_
      ⟨hs.clocked, hs.onSchedule⟩ h
    rintro t act ⟨hclock, hsched⟩ hact
    exact ⟨(hclock.step cfg act).1, hsched.step hclock hact⟩
  exact ⟨hrun.2, hrun.2.antitone, hrun.2.total_le hinterval⟩

/-! ## Two chains -/

/-- The schedule of the Setheum runtime, read as taking the duration of the era. -/
def byDuration : Config ℕ := sampleConfig 4032 144000 fun _ _ eraDuration => eraDuration

/-- An era of three seconds. -/
def shortEra : List (Act ℕ) :=
  [.genesisSessions sampleElection sampleElection, .onFinalize 1000,
    .rotateSession 4000 sampleElection]

theorem issuance_shortEra :
    OnSchedule byDuration (Machine.run (step byDuration) sampleGenesis shortEra) ∧
      (createdAmounts (Machine.run (step byDuration) sampleGenesis shortEra)).Pairwise (· ≤ ·) ∧
      (createdAmounts (Machine.run (step byDuration) sampleGenesis shortEra)).sum
        ≤ 2 * 4032 * 144000 := by
  refine @issuance_of_run ℕ _ byDuration (by decide) _ sampleGenesis_genesis _
    ⟨trivial, trivial, ?_, trivial⟩
  intro a ha i hi _
  cases ha
  exact ⟨1000, rfl, by decide⟩

/-- An era of four hours, with the issuance brought back to a million units before it ends. -/
def usualEra (era : ℕ) : List (Act ℕ) :=
  [.onFinalize (era * 14400000), .outside sampleNative Ledger.empty References.provideAll,
    .rotateSession (era * 14400000 + 14400000) sampleElection]

/-- The chain at the start of session `era`, whose eras are sessions, all with a stake of a thousand
units. -/
structure Ready (era : ℕ) (s : State ℕ) : Prop where
  session : s.session = some era
  activeEra : s.activeEra = some ⟨era, none⟩
  currentEra : s.currentEra = some (era + 1)
  nextStart : s.erasStartSessionIndex (era + 1) = some (era + 1)
  activeStake : s.erasTotalStake era = 1000
  nextStake : s.erasTotalStake (era + 1) = 1000
  historyDepth : s.historyDepth = 84
  forceEra : s.forceEra = .NotForcing
  minimumValidatorCount : s.minimumValidatorCount = 1

/-- The native amount created by an era of four hours with a stake of a thousand units and an
issuance of a million. -/
def usualCreated (cfg : Config ℕ) : ℕ :=
  (eraPayout cfg 1000 1000000 14400000).2.1 + (eraPayout cfg 1000 1000000 14400000).2.2

section Usual

variable {interval initial : ℕ} {payout : ℕ → ℕ → ℕ → ℕ}

/-- The chain between the start of session `era` and the planning of the one after it. -/
structure Started (era : ℕ) (s : State ℕ) : Prop where
  session : s.session = some era
  activeEra : s.activeEra = some ⟨era, none⟩
  currentEra : s.currentEra = some era
  start : s.erasStartSessionIndex era = some era
  activeStake : s.erasTotalStake era = 1000
  historyDepth : s.historyDepth = 84
  forceEra : s.forceEra = .NotForcing
  minimumValidatorCount : s.minimumValidatorCount = 1

/-- Planning the next era gives it the same stake. -/
theorem Started.newSession {era : ℕ} {s : State ℕ} (hs : Started era s) :
    Ready era (newSession (sampleConfig interval initial payout) (era + 1) sampleElection s) := by
  obtain ⟨hsession, hactive, hcurrent, hstart, hstake, hdepth, hforce, hcount⟩ := hs
  have hlength : era + 1 - era = 1 := by omega
  have hnew : s.newPlannedEra = era + 1 := by simp [State.newPlannedEra, hcurrent]
  have hone : ¬ 1 < max 1 1 := by decide
  have htrigger : Staking.newSession (sampleConfig interval initial payout) (era + 1)
      sampleElection s = triggerNewEra (sampleConfig interval initial payout) (era + 1)
        (collectExposures [(1, { voters := [(1, 1000)], fits := by decide })]) s := by
    simp only [Staking.newSession, hcurrent, hstart, Option.getD_some, hlength, hforce, eraIsDue,
      sampleElection, tryTriggerNewEra, hcount, List.length_cons, List.length_nil, Nat.zero_add,
      hone, if_false]
    simp [sampleConfig, endForcing, triggerNewEra, storeStakersInfo, clearOldEra,
      clearEraInformation, planEra, hforce, apply_ite State.forceEra]
  obtain ⟨hc, ha, hi, -, hk, -⟩ := triggerNewEra_spec (sampleConfig interval initial payout)
    (era + 1) (collectExposures [(1, { voters := [(1, 1000)], fits := by decide })]) s
  rw [← htrigger, hnew] at hk
  rw [← htrigger, hnew] at hc
  rw [← htrigger] at ha hi
  refine ⟨hi.trans hsession, ha.trans hactive, hc, hk, ?_, ?_, ?_, ?_, ?_⟩
  · rw [htrigger]
    simp only [triggerNewEra, storeStakersInfo, clearOldEra, planEra, hnew, hdepth]
    split
    · have hne : era ≠ era - 84 := by omega
      simp [clearEraInformation, hne, hstake]
    · simp [hstake]
  · rw [htrigger]
    simp only [triggerNewEra, storeStakersInfo, hnew, Function.update_self]
    decide
  all_goals
    rw [htrigger]
    simp only [triggerNewEra, storeStakersInfo, clearOldEra]
    split <;> assumption

/-- An era of the chain creates the usual amount and leaves the chain ready for the next. -/
theorem Ready.usualEra {era : ℕ} {s : State ℕ} (hs : Ready era s) :
    Ready (era + 1) (Machine.run (step (sampleConfig interval initial payout)) s
        (usualEra era)) ∧
      createdAmounts (Machine.run (step (sampleConfig interval initial payout)) s
        (Staking.usualEra era))
        = usualCreated (sampleConfig interval initial payout) :: createdAmounts s := by
  obtain ⟨hsession, hactive, hcurrent, hstart, hstake, hnext, hdepth, hforce, hcount⟩ := hs
  have hduration : era * 14400000 + 14400000 - era * 14400000 = 14400000 := by omega
  have hended : ∃ t, Machine.run (step (sampleConfig interval initial payout)) s
      (Staking.usualEra era)
        = Staking.newSession (sampleConfig interval initial payout) (era + 2) sampleElection t ∧
      Started (era + 1) t ∧
      createdAmounts t
        = usualCreated (sampleConfig interval initial payout) :: createdAmounts s := by
    refine ⟨startEra (recordPayout (sampleConfig interval initial payout) era
      (eraPayout (sampleConfig interval initial payout) 1000 1000000 14400000)
      { s with
        activeEra := some ⟨era, some (era * 14400000)⟩
        native := sampleNative
        setter := Ledger.empty
        system := References.provideAll
        session := some (era + 1) }), ?_, ?_, ?_⟩
    · simp only [Staking.usualEra, Machine.run_cons, Machine.run_nil, step, onFinalize, hactive,
        rotateSession, hsession, endSession, hstart, if_true, endEra, hduration, hstake,
        startSession, State.nextActiveEra, recordPayout, mint, Nat.le_refl, startEra]
      rfl
    · exact ⟨rfl, rfl, hcurrent, hstart, hnext, hdepth, hforce, hcount⟩
    · rfl
  obtain ⟨t, hrun, hstarted, hcreated⟩ := hended
  rw [hrun]
  refine ⟨hstarted.newSession, ?_⟩
  rw [← hcreated]
  unfold createdAmounts
  rw [(newSession_frame _ _ _ t).2.2]

/-- Usual eras one after the other. -/
def usualEras (n : ℕ) : List (Act ℕ) := (List.range n).flatMap Staking.usualEra

theorem Ready.usualEras {s : State ℕ} (hs : Ready 0 s) (n : ℕ) :
    Ready n (Machine.run (step (sampleConfig interval initial payout)) s (usualEras n)) ∧
      createdAmounts (Machine.run (step (sampleConfig interval initial payout)) s
        (Staking.usualEras n))
        = List.replicate n (usualCreated (sampleConfig interval initial payout))
          ++ createdAmounts s := by
  induction n with
  | zero => exact ⟨hs, rfl⟩
  | succ n ih =>
      obtain ⟨hready, hcreated⟩ := ih
      have hsplit : Staking.usualEras (n + 1) = Staking.usualEras n ++ Staking.usualEra n := by
        simp [Staking.usualEras, List.range_succ]
      obtain ⟨hready', hcreated'⟩ := hready.usualEra
      rw [hsplit, Machine.run_append]
      refine ⟨hready', ?_⟩
      rw [hcreated', hcreated, List.replicate_succ, List.cons_append]

end Usual

/-- The chain from genesis through `n` usual eras. -/
def usualChain (n : ℕ) : List (Act ℕ) :=
  .genesisSessions sampleElection sampleElection :: usualEras n

/-- **Whatever the undeclared amount is, the schedule is missed.** On a chain with the Setheum
runtime's constants, eras 0 and 4032 of one duration, stake and issuance create the same amount,
while the schedule halves it. -/
theorem schedule_missed :
    ¬ ∃ nativeIssuancePayout : ℕ → ℕ → ℕ → ℕ,
      OnSchedule (sampleConfig 4032 144000 nativeIssuancePayout)
        (Machine.run (step (sampleConfig 4032 144000 nativeIssuancePayout)) sampleGenesis
          (usualChain 4033)) := by
  rintro ⟨payout, h⟩
  have hgenesis : Ready 0 (step (sampleConfig 4032 144000 payout) sampleGenesis
      (.genesisSessions sampleElection sampleElection)) :=
    ⟨rfl, rfl, rfl, rfl, rfl, rfl, rfl, rfl, rfl⟩
  obtain ⟨hready, hcreated⟩ := hgenesis.usualEras 4033
  have hlist := h.createdAmounts_eq
  rw [usualChain, Machine.run_cons, hcreated, hready.activeEra] at hlist
  have hall : ∀ i < 4033, nativeIssuance (sampleConfig 4032 144000 payout) i
      = usualCreated (sampleConfig 4032 144000 payout) := by
    intro i hi
    have hmem : nativeIssuance (sampleConfig 4032 144000 payout) i ∈
        ((List.range 4033).map (nativeIssuance (sampleConfig 4032 144000 payout))).reverse :=
      List.mem_reverse.mpr (List.mem_map_of_mem (List.mem_range.mpr hi))
    rcases List.mem_append.mp (hlist ▸ hmem) with hrep | hnil
    · exact List.eq_of_mem_replicate hrep
    · cases hnil
  have hfirst : nativeIssuance (sampleConfig 4032 144000 payout) 0 = 144000 := by
    simp [nativeIssuance, sampleConfig]
  have hhalved : nativeIssuance (sampleConfig 4032 144000 payout) 4032 = 72000 := by
    simp [nativeIssuance, sampleConfig]
  have hsame := (hall 0 (by omega)).trans (hall 4032 (by omega)).symm
  omega

end Setheum.Staking
