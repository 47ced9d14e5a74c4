import Setheum.Staking.Effects

/-!
# The clock of eras

Sessions come one after the other, an era is planned one session before it starts, and the active
era is the planned one or the one before it. `Clocked` says so of the records about eras, and every
step keeps it; so an era that ends is ended once, by the session before the next era's first.

* `Clocked.step` — every step keeps the clock.
* `rotateSession_cases` — a session either ends the active era and starts the next, or neither.
-/

set_option autoImplicit false

namespace Setheum.Staking

variable {A : Type} [DecidableEq A] {cfg : Config A}

/-! ## What the session functions do -/

omit [DecidableEq A] in
/-- Clearing eras clears their first sessions and leaves the eras themselves as they are. -/
theorem clearEras_spec (eras : List ℕ) (s : State A) :
    (clearEras eras s).currentEra = s.currentEra ∧
      (clearEras eras s).activeEra = s.activeEra ∧
      (clearEras eras s).session = s.session ∧
      (clearEras eras s).eraPayouts = s.eraPayouts ∧
      ∀ e, (clearEras eras s).erasStartSessionIndex e
        = if e ∈ eras then none else s.erasStartSessionIndex e := by
  induction eras generalizing s with
  | nil => simp [clearEras]
  | cons era eras ih =>
      obtain ⟨hcurrent, hactive, hsession, hpayouts, hstart⟩ := ih (clearEraInformation era s)
      have hfold : clearEras (era :: eras) s = clearEras eras (clearEraInformation era s) := rfl
      rw [hfold]
      refine ⟨hcurrent, hactive, hsession, hpayouts, fun e => ?_⟩
      rw [hstart e]
      by_cases he : e = era
      · subst he
        simp [clearEraInformation]
      · simp [clearEraInformation, he]

variable (cfg) in
/-- Planning an era makes it the current one and gives it its first session. -/
theorem triggerNewEra_spec (j : ℕ) (exposures : List (A × Exposure A)) (s : State A) :
    (triggerNewEra cfg j exposures s).currentEra = some s.newPlannedEra ∧
      (triggerNewEra cfg j exposures s).activeEra = s.activeEra ∧
      (triggerNewEra cfg j exposures s).session = s.session ∧
      (triggerNewEra cfg j exposures s).eraPayouts = s.eraPayouts ∧
      (triggerNewEra cfg j exposures s).erasStartSessionIndex s.newPlannedEra = some j ∧
      ∀ e, e ≠ s.newPlannedEra →
        (triggerNewEra cfg j exposures s).erasStartSessionIndex e = s.erasStartSessionIndex e ∨
          (triggerNewEra cfg j exposures s).erasStartSessionIndex e = none := by
  unfold triggerNewEra storeStakersInfo clearOldEra
  dsimp only
  split
  · rename_i hold
    refine ⟨rfl, rfl, rfl, rfl, ?_, fun e he => ?_⟩
    · have hne : s.newPlannedEra ≠ s.newPlannedEra - (s.historyDepth + 1) := by omega
      simp [clearEraInformation, planEra, hne]
    · by_cases hcleared : e = s.newPlannedEra - (s.historyDepth + 1)
      · right
        simp [clearEraInformation, planEra, hcleared]
      · left
        simp [clearEraInformation, planEra, hcleared, he]
  · refine ⟨rfl, rfl, rfl, rfl, ?_, fun e he => ?_⟩
    · simp [planEra]
    · left
      simp [planEra, he]

variable (cfg) in
/-- **A new session plans no era, the very first one, or the next one.** -/
theorem newSession_cases (j : ℕ) (election : Election A) (s : State A) :
    (newSession cfg j election s).eras = s.eras ∨
      (s.currentEra = none ∧ (newSession cfg j election s).eras = (planEra 0 j s).eras) ∨
      ∃ exposures, (newSession cfg j election s).eras = (triggerNewEra cfg j exposures s).eras := by
  have htry : (tryTriggerNewEra cfg j election s).1.eras = s.eras ∨
      (s.currentEra = none ∧ (tryTriggerNewEra cfg j election s).1.eras = (planEra 0 j s).eras) ∨
      ∃ exposures, (tryTriggerNewEra cfg j election s).1.eras
        = (triggerNewEra cfg j exposures s).eras := by
    unfold tryTriggerNewEra
    split
    · exact .inl rfl
    · split
      · cases hcurrent : s.currentEra with
        | none => exact .inr (.inl ⟨rfl, rfl⟩)
        | some era => exact .inl rfl
      · exact .inr (.inr ⟨_, rfl⟩)
  have hforcing : ∀ r : State A × Bool, (endForcing r).eras = r.1.eras := by
    intro r
    unfold endForcing
    split <;> rfl
  unfold newSession
  split
  · exact htry
  · split
    · rw [hforcing]
      exact htry
    · exact .inl rfl

variable (cfg) in
/-- A new session either plans nothing or makes the next era the current one. -/
theorem newSession_plan (j : ℕ) (election : Election A) (s : State A) :
    ((newSession cfg j election s).currentEra = s.currentEra ∧
        (newSession cfg j election s).erasStartSessionIndex = s.erasStartSessionIndex) ∨
      ((newSession cfg j election s).currentEra = some s.newPlannedEra ∧
        (newSession cfg j election s).erasStartSessionIndex s.newPlannedEra = some j ∧
        ∀ e, e ≠ s.newPlannedEra →
          (newSession cfg j election s).erasStartSessionIndex e = s.erasStartSessionIndex e ∨
            (newSession cfg j election s).erasStartSessionIndex e = none) := by
  have hfields : ∀ t : State A, (newSession cfg j election s).eras = t.eras →
      (newSession cfg j election s).currentEra = t.currentEra ∧
        (newSession cfg j election s).erasStartSessionIndex = t.erasStartSessionIndex :=
    fun t ht => ⟨congrArg EraRecords.currentEra ht, congrArg EraRecords.erasStartSessionIndex ht⟩
  rcases newSession_cases cfg j election s with hsame | ⟨hnone, hfirst⟩ | ⟨exposures, hnext⟩
  · exact .inl (hfields s hsame)
  · obtain ⟨hcurrent, hstart⟩ := hfields _ hfirst
    have hnew : s.newPlannedEra = 0 := by simp [State.newPlannedEra, hnone]
    rw [hcurrent, hstart, hnew]
    refine .inr ⟨rfl, by simp [planEra], fun e he => .inl ?_⟩
    simp [planEra, he]
  · obtain ⟨hcurrent, hstart⟩ := hfields _ hnext
    obtain ⟨hc, -, -, -, hk, hother⟩ := triggerNewEra_spec cfg j exposures s
    rw [hcurrent, hstart]
    exact .inr ⟨hc, hk, hother⟩

omit [DecidableEq A] in
/-- A session starts the next era exactly when that is due. -/
theorem startSession_cases (j : ℕ) (s : State A) :
    (startSession j s = startEra s ∧
        ∃ k, s.erasStartSessionIndex s.nextActiveEra = some k ∧ k ≤ j) ∨
      (startSession j s = s ∧ ∀ k, s.erasStartSessionIndex s.nextActiveEra = some k → j < k) := by
  unfold startSession
  cases hstart : s.erasStartSessionIndex s.nextActiveEra with
  | none => exact .inr ⟨rfl, nofun⟩
  | some k =>
      dsimp only
      split
      · rename_i hle
        exact .inl ⟨rfl, k, rfl, hle⟩
      · rename_i hle
        refine .inr ⟨rfl, fun k' hk' => ?_⟩
        cases hk'
        omega

/-! ## The clock -/

/-- During session `i` the current era is the active one, or the next one, which session `i + 1`
will start. Before any era is active, none is planned, or the first one is and session `i + 1` will
start it, or its first session was forgotten and no era ever starts. -/
def Timely (i : ℕ) (r : EraRecords A) : Prop :=
  match r.activeEra with
  | some a => r.currentEra = some a.index ∨
      (r.currentEra = some (a.index + 1) ∧ r.erasStartSessionIndex (a.index + 1) = some (i + 1))
  | none => ∀ c, r.currentEra = some c →
      (c = 0 ∧ r.erasStartSessionIndex 0 = some (i + 1)) ∨ r.erasStartSessionIndex 0 = none

/-- Only planned eras have a first session, and the planned and the active era keep step. -/
structure Clocked (r : EraRecords A) : Prop where
  planned : ∀ e k, r.erasStartSessionIndex e = some k → ∃ c, r.currentEra = some c ∧ e ≤ c
  timely : ∀ i, r.session = some i → Timely i r
  unstarted : r.session = none → r.currentEra = none ∧ r.activeEra = none

/-- Between the start of session `i + 1` and the planning of the one after it, the active era is the
current one. -/
def Settled (r : EraRecords A) : Prop :=
  match r.activeEra with
  | some a => r.currentEra = some a.index
  | none => ∀ c, r.currentEra = some c → r.erasStartSessionIndex 0 = none

omit [DecidableEq A] in
theorem Genesis.clocked {s : State A} (hs : Genesis s) : Clocked s.eras where
  planned e k hk := by
    have hnone : s.erasStartSessionIndex e = none := hs.erasStartSessionIndex e
    rw [show s.eras.erasStartSessionIndex e = s.erasStartSessionIndex e from rfl, hnone] at hk
    cases hk
  timely i hi := by
    rw [show s.eras.session = s.session from rfl, hs.session] at hi
    cases hi
  unstarted _ := ⟨hs.currentEra, hs.activeEra⟩

/-- Which eras have a first session stays bounded by the current era through a new session. -/
theorem planned_newSession {j : ℕ} {election : Election A} {s : State A}
    (hplanned : ∀ e k, s.erasStartSessionIndex e = some k →
      ∃ c, s.currentEra = some c ∧ e ≤ c) :
    ∀ e k, (newSession cfg j election s).erasStartSessionIndex e = some k →
      ∃ c, (newSession cfg j election s).currentEra = some c ∧ e ≤ c := by
  intro e k hk
  rcases newSession_plan cfg j election s with ⟨hcurrent, hstart⟩ | ⟨hcurrent, -, hother⟩
  · rw [hstart] at hk
    rw [hcurrent]
    exact hplanned e k hk
  · refine ⟨s.newPlannedEra, hcurrent, ?_⟩
    by_cases he : e = s.newPlannedEra
    · omega
    · rcases hother e he with hkept | hcleared
      · obtain ⟨c, hc, hle⟩ := hplanned e k (hkept ▸ hk)
        have hnew : s.newPlannedEra = c + 1 := by simp [State.newPlannedEra, hc]
        omega
      · rw [hcleared] at hk
        cases hk

variable (cfg) in
/-- A new session ends no era and starts none. -/
theorem newSession_frame (j : ℕ) (election : Election A) (s : State A) :
    (newSession cfg j election s).activeEra = s.activeEra ∧
      (newSession cfg j election s).session = s.session ∧
      (newSession cfg j election s).eraPayouts = s.eraPayouts := by
  have hframe : (newSession cfg j election s).eras.activeEra = s.eras.activeEra ∧
      (newSession cfg j election s).eras.session = s.eras.session ∧
      (newSession cfg j election s).eras.eraPayouts = s.eras.eraPayouts := by
    rcases newSession_cases cfg j election s with hsame | ⟨-, hfirst⟩ | ⟨exposures, hnext⟩
    · rw [hsame]
      exact ⟨rfl, rfl, rfl⟩
    · rw [hfirst]
      exact ⟨rfl, rfl, rfl⟩
    · rw [hnext]
      obtain ⟨-, hactive, hsession, hpayouts, -⟩ := triggerNewEra_spec cfg j exposures s
      exact ⟨hactive, hsession, hpayouts⟩
  exact hframe

/-- Planning the session after next from a settled clock. -/
theorem Settled.newSession {i : ℕ} {election : Election A} {s : State A} (hs : Settled s.eras) :
    Timely i (newSession cfg (i + 1) election s).eras := by
  obtain ⟨hactive', -, -⟩ := newSession_frame cfg (i + 1) election s
  cases hactive : s.activeEra with
  | none =>
      simp only [Settled, Timely, State.eras, hactive, hactive'] at hs ⊢
      intro c hc
      rcases newSession_plan cfg (i + 1) election s with
        ⟨hcurrent, hstart⟩ | ⟨hcurrent, hstart, hother⟩
      · rw [hcurrent] at hc
        rw [hstart]
        exact .inr (hs c hc)
      · rw [hcurrent] at hc
        cases hc
        by_cases hzero : s.newPlannedEra = 0
        · rw [hzero] at hstart ⊢
          exact .inl ⟨rfl, hstart⟩
        · refine .inr ((hother 0 (Ne.symm hzero)).elim (fun hkept => ?_) id)
          rw [hkept]
          cases hera : s.currentEra with
          | none => simp [State.newPlannedEra, hera] at hzero
          | some c => exact hs c hera
  | some a =>
      simp only [Settled, Timely, State.eras, hactive, hactive'] at hs ⊢
      have hnew : s.newPlannedEra = a.index + 1 := by simp [State.newPlannedEra, hs]
      rcases newSession_plan cfg (i + 1) election s with
        ⟨hcurrent, -⟩ | ⟨hcurrent, hstart, -⟩
      · rw [hcurrent]
        exact .inl hs
      · rw [hnew] at hcurrent hstart
        exact .inr ⟨hcurrent, hstart⟩

/-! ## The rotation of sessions -/

variable (cfg) in
/-- Whether session `i` ends the active era, and with what. -/
theorem endSession_cases (i now : ℕ) (s : State A) :
    (∃ a, s.activeEra = some a ∧ s.erasStartSessionIndex (a.index + 1) = some (i + 1) ∧
        endSession cfg i now s = endEra cfg a now s) ∨
      ((∀ a, s.activeEra = some a → s.erasStartSessionIndex (a.index + 1) ≠ some (i + 1)) ∧
        endSession cfg i now s = s) := by
  unfold endSession
  cases hactive : s.activeEra with
  | none => exact .inr ⟨nofun, rfl⟩
  | some a =>
      dsimp only
      split
      · rename_i hdue
        exact .inl ⟨a, rfl, hdue, rfl⟩
      · rename_i hdue
        refine .inr ⟨fun b hb => ?_, rfl⟩
        cases hb
        exact hdue

variable (cfg) in
/-- Ending an era leaves the clock alone. -/
theorem endEra_frame (a : ActiveEraInfo) (now : ℕ) (s : State A) :
    (endEra cfg a now s).currentEra = s.currentEra ∧
      (endEra cfg a now s).activeEra = s.activeEra ∧
      (endEra cfg a now s).session = s.session ∧
      (endEra cfg a now s).erasStartSessionIndex = s.erasStartSessionIndex := by
  unfold endEra
  split
  · exact ⟨rfl, rfl, rfl, rfl⟩
  · unfold recordPayout mint
    split <;> exact ⟨rfl, rfl, rfl, rfl⟩

variable (cfg) in
/-- What an era pays out does not depend on the session. -/
theorem endEra_eraPayouts_session (a : ActiveEraInfo) (now : ℕ) (s : State A)
    (session : Option ℕ) :
    (endEra cfg a now { s with session }).eraPayouts = (endEra cfg a now s).eraPayouts := by
  unfold endEra
  split <;> rfl

/-- The clock between the end of session `i` and the start of the next. -/
structure Ended (i : ℕ) (s s₁ : State A) : Prop where
  currentEra : s₁.currentEra = s.currentEra
  activeEra : s₁.activeEra = s.activeEra
  session : s₁.session = some (i + 1)
  erasStartSessionIndex : s₁.erasStartSessionIndex = s.erasStartSessionIndex

variable (cfg) in
theorem endSession_ended (i now : ℕ) (s : State A) :
    Ended i s (endSession cfg i now { s with session := some (i + 1) }) := by
  rcases endSession_cases cfg i now { s with session := some (i + 1) } with
    ⟨a, -, -, hend⟩ | ⟨-, hsame⟩
  · rw [hend]
    obtain ⟨hcurrent, hactive, hsession, hstart⟩ :=
      endEra_frame cfg a now { s with session := some (i + 1) }
    exact ⟨hcurrent, hactive, hsession, hstart⟩
  · rw [hsame]
    exact ⟨rfl, rfl, rfl, rfl⟩

omit [DecidableEq A] in
/-- Before any era is active, the next session starts the first one or none. -/
theorem startSession_first {i : ℕ} {s s₁ : State A} (hs : Clocked s.eras)
    (hi : s.session = some i) (hactive : s.activeEra = none) (h : Ended i s s₁) :
    Settled (startSession (i + 1) s₁).eras ∧
      ((startSession (i + 1) s₁).activeEra = none ∨
        (startSession (i + 1) s₁).activeEra = some ⟨0, none⟩) := by
  have htimely := hs.timely i hi
  simp only [Timely, State.eras, hactive] at htimely
  have hnext : s₁.nextActiveEra = 0 := by
    simp [State.nextActiveEra, h.activeEra, hactive]
  rcases startSession_cases (i + 1) s₁ with ⟨hstarted, k, hk, -⟩ | ⟨hsame, hlate⟩
  · rw [hstarted]
    rw [h.erasStartSessionIndex, hnext] at hk
    obtain ⟨c, hc, -⟩ := hs.planned 0 k hk
    refine ⟨?_, .inr (by simp [startEra, hnext])⟩
    have hzero : c = 0 := by
      rcases htimely c hc with ⟨rfl, -⟩ | hnone
      · rfl
      · rw [hnone] at hk
        cases hk
    subst hzero
    simp only [Settled, State.eras, startEra, hnext, h.currentEra]
    exact hc
  · rw [hsame]
    rw [h.erasStartSessionIndex, hnext] at hlate
    refine ⟨?_, .inl (by rw [h.activeEra, hactive])⟩
    simp only [Settled, State.eras, h.activeEra, hactive, h.currentEra, h.erasStartSessionIndex]
    intro c hc
    rcases htimely c hc with ⟨-, hdue⟩ | hnone
    · have hlt := hlate (i + 1) hdue
      omega
    · exact hnone

omit [DecidableEq A] in
/-- **The next session starts the next era exactly when the session before it ended the active
one**; then the clock is settled. -/
theorem startSession_next {i : ℕ} {s s₁ : State A} {a : ActiveEraInfo} (hs : Clocked s.eras)
    (hi : s.session = some i) (hactive : s.activeEra = some a) (h : Ended i s s₁) :
    Settled (startSession (i + 1) s₁).eras ∧
      (startSession (i + 1) s₁).activeEra
        = if s.erasStartSessionIndex (a.index + 1) = some (i + 1) then some ⟨a.index + 1, none⟩
          else some a := by
  have htimely := hs.timely i hi
  simp only [Timely, State.eras, hactive] at htimely
  have hnext : s₁.nextActiveEra = a.index + 1 := by
    simp [State.nextActiveEra, h.activeEra, hactive]
  rcases startSession_cases (i + 1) s₁ with ⟨hstarted, k, hk, -⟩ | ⟨hsame, hlate⟩
  · rw [hstarted]
    rw [h.erasStartSessionIndex, hnext] at hk
    obtain ⟨c, hc, hlec⟩ := hs.planned (a.index + 1) k hk
    have hc' : s.currentEra = some c := hc
    rcases htimely with hcurrent | ⟨hcurrent, hdue⟩
    · rw [hc'] at hcurrent
      cases hcurrent
      omega
    · refine ⟨?_, ?_⟩
      · simp only [Settled, State.eras, startEra, hnext, h.currentEra]
        exact hcurrent
      · rw [if_pos hdue]
        simp [startEra, hnext]
  · rw [hsame]
    rw [h.erasStartSessionIndex, hnext] at hlate
    have hnotDue : s.erasStartSessionIndex (a.index + 1) ≠ some (i + 1) := by
      intro hdue
      have hlt := hlate (i + 1) hdue
      omega
    rw [if_neg hnotDue]
    refine ⟨?_, by rw [h.activeEra, hactive]⟩
    simp only [Settled, State.eras, h.activeEra, hactive, h.currentEra]
    rcases htimely with hcurrent | ⟨-, hdue⟩
    · exact hcurrent
    · exact absurd hdue hnotDue

/-- What a rotation of the sessions does to the eras. -/
inductive Rotation (cfg : Config A) (i now : ℕ) (s s' : State A) : Prop
  | ends (a : ActiveEraInfo) (hactive : s.activeEra = some a)
      (hdue : s.erasStartSessionIndex (a.index + 1) = some (i + 1))
      (hnext : s'.activeEra = some ⟨a.index + 1, none⟩)
      (hpayouts : s'.eraPayouts = (endEra cfg a now s).eraPayouts)
  | goesOn (a : ActiveEraInfo) (hactive : s.activeEra = some a)
      (hdue : s.erasStartSessionIndex (a.index + 1) ≠ some (i + 1))
      (hsame : s'.activeEra = some a) (hpayouts : s'.eraPayouts = s.eraPayouts)
  | waits (hactive : s.activeEra = none)
      (hfirst : s'.activeEra = none ∨ s'.activeEra = some ⟨0, none⟩)
      (hpayouts : s'.eraPayouts = s.eraPayouts)

omit [DecidableEq A] in
theorem startSession_frame (j : ℕ) (s : State A) :
    (startSession j s).session = s.session ∧
      (startSession j s).currentEra = s.currentEra ∧
      (startSession j s).erasStartSessionIndex = s.erasStartSessionIndex ∧
      (startSession j s).eraPayouts = s.eraPayouts := by
  rcases startSession_cases j s with ⟨hstarted, -⟩ | ⟨hsame, -⟩
  · rw [hstarted]
    exact ⟨rfl, rfl, rfl, rfl⟩
  · rw [hsame]
    exact ⟨rfl, rfl, rfl, rfl⟩

variable (cfg) in
/-- **A session either ends the active era and starts the next, or neither**, and the clock goes
on. -/
theorem rotateSession_cases {i : ℕ} {s : State A} (hs : Clocked s.eras) (hi : s.session = some i)
    (now : ℕ) (election : Election A) :
    Clocked (rotateSession cfg now election s).eras ∧
      Rotation cfg i now s (rotateSession cfg now election s) := by
  have hrotate : rotateSession cfg now election s = newSession cfg (i + 2) election
      (startSession (i + 1) (endSession cfg i now { s with session := some (i + 1) })) := by
    simp only [rotateSession, hi]
  rw [hrotate]
  have hended := endSession_ended cfg i now s
  have hpayouts := endSession_cases cfg i now { s with session := some (i + 1) }
  generalize hs₁ : endSession cfg i now { s with session := some (i + 1) } = s₁ at hended hpayouts ⊢
  obtain ⟨hsession₂, hcurrent₂, hstart₂, hpayouts₂⟩ := startSession_frame (i + 1) s₁
  obtain ⟨hactive₃, hsession₃, hpayouts₃⟩ :=
    newSession_frame cfg (i + 2) election (startSession (i + 1) s₁)
  have hplanned : ∀ e k, (startSession (i + 1) s₁).erasStartSessionIndex e = some k →
      ∃ c, (startSession (i + 1) s₁).currentEra = some c ∧ e ≤ c := by
    intro e k hk
    rw [hstart₂, hended.erasStartSessionIndex] at hk
    rw [hcurrent₂, hended.currentEra]
    exact hs.planned e k hk
  have hclocked : Settled (startSession (i + 1) s₁).eras →
      Clocked (newSession cfg (i + 2) election (startSession (i + 1) s₁)).eras := by
    intro hsettled
    refine ⟨planned_newSession hplanned, fun i' hi' => ?_, fun hnone => ?_⟩
    · have hi'' : (newSession cfg (i + 2) election (startSession (i + 1) s₁)).session
          = some i' := hi'
      rw [hsession₃, hsession₂, hended.session] at hi''
      cases hi''
      exact hsettled.newSession
    · have hnone' : (newSession cfg (i + 2) election (startSession (i + 1) s₁)).session
          = none := hnone
      rw [hsession₃, hsession₂, hended.session] at hnone'
      cases hnone'
  cases hactive : s.activeEra with
  | none =>
      obtain ⟨hsettled, hfirst⟩ := startSession_first hs hi hactive hended
      refine ⟨hclocked hsettled, .waits hactive ?_ ?_⟩
      · rw [hactive₃]
        exact hfirst
      · rw [hpayouts₃, hpayouts₂]
        rcases hpayouts with ⟨a, ha, -⟩ | ⟨-, hsame⟩
        · have ha' : s.activeEra = some a := ha
          rw [hactive] at ha'
          cases ha'
        · rw [hsame]
  | some a =>
      obtain ⟨hsettled, hnext⟩ := startSession_next hs hi hactive hended
      refine ⟨hclocked hsettled, ?_⟩
      rcases hpayouts with ⟨b, hb, hdue, hend⟩ | ⟨hnotDue, hsame⟩
      · have hb' : s.activeEra = some b := hb
        rw [hactive] at hb'
        cases hb'
        rw [if_pos hdue] at hnext
        refine .ends a hactive hdue (by rw [hactive₃, hnext]) ?_
        rw [hpayouts₃, hpayouts₂, hend, endEra_eraPayouts_session]
      · have hdue := hnotDue a hactive
        rw [if_neg hdue] at hnext
        refine .goesOn a hactive hdue (by rw [hactive₃, hnext]) ?_
        rw [hpayouts₃, hpayouts₂, hsame]

/-! ## Every step keeps the clock -/

/-- The first two sessions plan no era, or the eras that they start. -/
private theorem genesis_planned {s s₁ s₂ : State A} {first second : Election A}
    (hcurrent : s.currentEra = none) (hs₁ : newSession cfg 0 first s = s₁)
    (hs₂ : newSession cfg 1 second s₁ = s₂) :
    s₂.currentEra = none ∨ (s₂.currentEra = some 0 ∧ s₂.erasStartSessionIndex 0 = some 0) ∨
      (s₂.currentEra = some 0 ∧ s₂.erasStartSessionIndex 0 = some 1) ∨
      (s₂.currentEra = some 1 ∧ s₂.erasStartSessionIndex 1 = some 1 ∧
        (s₂.erasStartSessionIndex 0 = some 0 ∨ s₂.erasStartSessionIndex 0 = none)) := by
  have hnew : s.newPlannedEra = 0 := by simp [State.newPlannedEra, hcurrent]
  have hfirst := newSession_plan cfg 0 first s
  have hsecond := newSession_plan cfg 1 second s₁
  rw [hs₁, hnew] at hfirst
  rw [hs₂] at hsecond
  rcases hfirst with ⟨hc₁, -⟩ | ⟨hc₁, hk₁, -⟩
  · have hnew₁ : s₁.newPlannedEra = 0 := by simp [State.newPlannedEra, hc₁, hcurrent]
    rw [hnew₁] at hsecond
    rcases hsecond with ⟨hc₂, -⟩ | ⟨hc₂, hk₂, -⟩
    · exact .inl (hc₂.trans (hc₁.trans hcurrent))
    · exact .inr (.inr (.inl ⟨hc₂, hk₂⟩))
  · have hnew₁ : s₁.newPlannedEra = 1 := by simp [State.newPlannedEra, hc₁]
    rw [hnew₁] at hsecond
    rcases hsecond with ⟨hc₂, hk₂⟩ | ⟨hc₂, hk₂, hother⟩
    · exact .inr (.inl ⟨hc₂.trans hc₁, by rw [hk₂, hk₁]⟩)
    · refine .inr (.inr (.inr ⟨hc₂, hk₂, ?_⟩))
      rw [← hk₁]
      exact hother 0 (by omega)

variable (cfg) in
/-- The genesis of the sessions starts the clock. -/
theorem Clocked.genesisSessions {s : State A} (hs : Clocked s.eras) (first second : Election A) :
    Clocked (genesisSessions cfg first second s).eras ∧
      (Staking.genesisSessions cfg first second s).eraPayouts = s.eraPayouts ∧
      (s.session = none → (Staking.genesisSessions cfg first second s).activeEra = none ∨
        (Staking.genesisSessions cfg first second s).activeEra = some ⟨0, none⟩) ∧
      (s.session ≠ none → Staking.genesisSessions cfg first second s = s) := by
  unfold Staking.genesisSessions
  cases hsession : s.session with
  | some i => exact ⟨hs, rfl, nofun, fun _ => rfl⟩
  | none =>
      dsimp only
      obtain ⟨hcurrent, hactive⟩ := hs.unstarted hsession
      generalize hs₁ : newSession cfg 0 first { s with session := some 0 } = s₁
      generalize hs₂ : newSession cfg 1 second s₁ = s₂
      have hcurrent₀ : ({ s with session := some 0 } : State A).currentEra = none := hcurrent
      have hplanned := genesis_planned hcurrent₀ hs₁ hs₂
      obtain ⟨ha₁, hi₁, hp₁⟩ := newSession_frame cfg 0 first { s with session := some 0 }
      obtain ⟨ha₂, hi₂, hp₂⟩ := newSession_frame cfg 1 second s₁
      obtain ⟨hi₃, hc₃, hk₃, hp₃⟩ := startSession_frame 0 s₂
      rw [hs₁] at ha₁ hi₁ hp₁
      rw [hs₂] at ha₂ hi₂ hp₂
      have hnone : s₂.activeEra = none := ha₂.trans (ha₁.trans hactive)
      have hnext : s₂.nextActiveEra = 0 := by simp [State.nextActiveEra, hnone]
      have hbound : ∀ e k, s₂.erasStartSessionIndex e = some k →
          ∃ c, s₂.currentEra = some c ∧ e ≤ c := by
        rw [← hs₂]
        refine planned_newSession ?_
        rw [← hs₁]
        exact planned_newSession hs.planned
      have hsession₃ : (startSession 0 s₂).session = some 0 := hi₃.trans (hi₂.trans hi₁)
      have hstarted : Timely 0 (startSession 0 s₂).eras ∧
          ((startSession 0 s₂).activeEra = none ∨
            (startSession 0 s₂).activeEra = some ⟨0, none⟩) := by
        rcases startSession_cases 0 s₂ with ⟨hstart, k, hk, hle⟩ | ⟨hsame, hlate⟩
        · rw [hstart]
          rw [hnext] at hk
          have hzero : k = 0 := by omega
          subst hzero
          refine ⟨?_, .inr (by simp [startEra, hnext])⟩
          simp only [Timely, State.eras, startEra, hnext]
          rcases hplanned with hc | ⟨hc, -⟩ | ⟨-, hone⟩ | ⟨hc, hone, -⟩
          · obtain ⟨c, hc', -⟩ := hbound 0 0 hk
            rw [hc] at hc'
            cases hc'
          · exact .inl hc
          · rw [hk] at hone
            cases hone
          · exact .inr ⟨hc, hone⟩
        · rw [hsame]
          rw [hnext] at hlate
          refine ⟨?_, .inl hnone⟩
          simp only [Timely, State.eras, hnone]
          intro c hc
          rcases hplanned with hc' | ⟨-, hzero⟩ | ⟨hc', hone⟩ | ⟨-, -, hzero | hcleared⟩
          · rw [hc] at hc'
            cases hc'
          · have hlt := hlate 0 hzero
            omega
          · rw [hc] at hc'
            cases hc'
            exact .inl ⟨rfl, hone⟩
          · have hlt := hlate 0 hzero
            omega
          · exact .inr hcleared
      refine ⟨⟨?_, ?_, ?_⟩, hp₃.trans (hp₂.trans hp₁), fun _ => hstarted.2, fun h => absurd rfl h⟩
      · intro e k hk
        have hk' : (startSession 0 s₂).erasStartSessionIndex e = some k := hk
        rw [hk₃] at hk'
        obtain ⟨c, hc, hle⟩ := hbound e k hk'
        exact ⟨c, hc₃.trans hc, hle⟩
      · intro i hi
        have hi' : (startSession 0 s₂).session = some i := hi
        rw [hsession₃] at hi'
        cases hi'
        exact hstarted.1
      · intro hi
        have hi' : (startSession 0 s₂).session = none := hi
        rw [hsession₃] at hi'
        cases hi'

omit [DecidableEq A] in
/-- Clearing eras before the current one keeps the clock. -/
theorem Clocked.clearEras {s : State A} (hs : Clocked s.eras) {currentEra depth : ℕ}
    (hcurrent : s.currentEra = some currentEra) :
    Clocked ({ clearEras (List.range' s.lastKept (currentEra - depth - s.lastKept)) s with
      historyDepth := depth } : State A).eras := by
  generalize hcleared : List.range' s.lastKept (currentEra - depth - s.lastKept) = eras
  have hpast : ∀ e ∈ eras, e < currentEra := by
    intro e he
    rw [← hcleared, List.mem_range'_1] at he
    omega
  obtain ⟨hc, ha, hi, -, hk⟩ := clearEras_spec eras s
  have hkept : ∀ e k, (Staking.clearEras eras s).erasStartSessionIndex e = some k →
      s.erasStartSessionIndex e = some k := by
    intro e k h
    rw [hk e] at h
    split at h
    · cases h
    · exact h
  refine ⟨fun e k h => ?_, fun i h => ?_, fun h => ?_⟩
  · obtain ⟨c, hc', hle⟩ := hs.planned e k (hkept e k h)
    exact ⟨c, hc.trans hc', hle⟩
  · have htimely := hs.timely i (hi.symm.trans h)
    have ha' : ({ Staking.clearEras eras s with historyDepth := depth } : State A).eras.activeEra
        = s.activeEra := ha
    unfold Timely at htimely ⊢
    rw [ha']
    cases hactive : s.activeEra with
    | none =>
        simp only [State.eras, hactive] at htimely ⊢
        intro c hc'
        rw [hc] at hc'
        rcases htimely c hc' with ⟨rfl, hone⟩ | hforgotten
        · left
          refine ⟨rfl, ?_⟩
          rw [hcurrent] at hc'
          cases hc'
          rw [hk 0, if_neg (fun hmem => absurd (hpast 0 hmem) (Nat.lt_irrefl 0))]
          exact hone
        · right
          rw [hk 0]
          split
          · rfl
          · exact hforgotten
    | some a =>
        simp only [State.eras, hactive] at htimely ⊢
        rcases htimely with hcur | ⟨hcur, hone⟩
        · exact .inl (hc.trans hcur)
        · refine .inr ⟨hc.trans hcur, ?_⟩
          rw [hcurrent] at hcur
          cases hcur
          rw [hk, if_neg (fun hmem => absurd (hpast _ hmem) (Nat.lt_irrefl _))]
          exact hone
  · obtain ⟨hnone, hactive⟩ := hs.unstarted (hi.symm.trans h)
    exact ⟨hc.trans hnone, ha.trans hactive⟩

/-- The number of eras that have ended. -/
def endedEras (activeEra : Option ActiveEraInfo) : ℕ :=
  match activeEra with
  | some a => a.index
  | none => 0

/-- What a step does to the active era and to the payouts of eras. -/
inductive Tick (cfg : Config A) (s : State A) (act : Act A) : State A → Prop
  | quiet (s' : State A) (hended : endedEras s'.activeEra = endedEras s.activeEra)
      (hpayouts : s'.eraPayouts = s.eraPayouts) : Tick cfg s act s'
  | ends (s' : State A) (i now : ℕ) (election : Election A) (a : ActiveEraInfo)
      (hact : act = .rotateSession now election) (hsession : s.session = some i)
      (hactive : s.activeEra = some a)
      (hdue : s.erasStartSessionIndex (a.index + 1) = some (i + 1))
      (hnext : s'.activeEra = some ⟨a.index + 1, none⟩)
      (hpayouts : s'.eraPayouts = (endEra cfg a now s).eraPayouts) : Tick cfg s act s'

/-- A step that leaves the records about eras alone. -/
theorem quiet_of_eras {s s' : State A} {act : Act A} (hs : Clocked s.eras)
    (h : s'.eras = s.eras) : Clocked s'.eras ∧ Tick cfg s act s' := by
  refine ⟨h ▸ hs, .quiet s' ?_ (congrArg EraRecords.eraPayouts h)⟩
  exact congrArg endedEras (congrArg EraRecords.activeEra h)

/-- Setting the start of the active era keeps the clock. -/
theorem Clocked.onFinalize {s : State A} (hs : Clocked s.eras) (now : ℕ) :
    Clocked (onFinalize now s).eras ∧
      Tick cfg s (.onFinalize now) (Staking.onFinalize now s) := by
  unfold Staking.onFinalize
  split
  · rename_i index hactive
    refine ⟨⟨hs.planned, fun i hi => ?_, fun hi => ?_⟩, .quiet _ ?_ rfl⟩
    · have htimely := hs.timely i hi
      simp only [Timely, State.eras, hactive] at htimely ⊢
      exact htimely
    · obtain ⟨-, hnone⟩ := hs.unstarted hi
      have hnone' : s.activeEra = none := hnone
      rw [hactive] at hnone'
      cases hnone'
    · rw [hactive]
      rfl
  · exact quiet_of_eras hs rfl

variable (cfg) in
theorem doSlash_eras (stash : A) (value : ℕ) (s : State A) :
    (doSlash cfg stash value s).eras = s.eras := by
  unfold doSlash
  repeat' split
  all_goals rfl

theorem noteOffence_eras (stash : A) (spans : SlashingSpans) (chills forces : Bool) (s : State A) :
    (noteOffence stash spans chills forces s).eras = s.eras := by
  have hensure : ∀ t : State A, (ensureNewEra t).eras = t.eras := by
    intro t
    unfold ensureNewEra
    split <;> rfl
  unfold noteOffence
  dsimp only
  split
  · rw [hensure]
    split
    · rw [chillStash_eras]
      rfl
    · rfl
  · split
    · rw [chillStash_eras]
      rfl
    · rfl

variable (cfg) in
/-- **Every step keeps the clock**, and only a session that ends the active era pays out. -/
theorem Clocked.step {s : State A} (hs : Clocked s.eras) (act : Act A) :
    Clocked (step cfg s act).eras ∧ Tick cfg s act (Staking.step cfg s act) := by
  cases act with
  | call origin c =>
      rcases dispatch_cases cfg origin c s with hsame | heffect
      · exact quiet_of_eras hs (by rw [Staking.step, hsame])
      · rcases heffect.eras_eq with heras | ⟨currentEra, depth, hcurrent, hcleared⟩
        · exact quiet_of_eras hs heras
        · refine ⟨?_, .quiet _ ?_ ?_⟩
          · rw [Staking.step, hcleared]
            exact hs.clearEras hcurrent
          · rw [Staking.step, hcleared]
            exact congrArg endedEras (clearEras_spec _ s).2.1
          · rw [Staking.step, hcleared]
            exact (clearEras_spec _ s).2.2.2.1
  | genesisSessions first second =>
      obtain ⟨hclocked, hpayouts, hfresh, hsame⟩ := hs.genesisSessions cfg first second
      refine ⟨hclocked, .quiet _ ?_ hpayouts⟩
      by_cases hsession : s.session = none
      · obtain ⟨-, hactive⟩ := hs.unstarted hsession
        have hactive' : s.activeEra = none := hactive
        rw [hactive', Staking.step]
        rcases hfresh hsession with hnone | hzero
        · rw [hnone]
        · rw [hzero]
          rfl
      · rw [Staking.step, hsame hsession]
  | rotateSession now election =>
      cases hsession : s.session with
      | none =>
          have hsame : Staking.step cfg s (.rotateSession now election) = s := by
            simp only [Staking.step, rotateSession, hsession]
          rw [hsame]
          exact quiet_of_eras hs rfl
      | some i =>
          obtain ⟨hclocked, hrotation⟩ := rotateSession_cases cfg hs hsession now election
          refine ⟨hclocked, ?_⟩
          cases hrotation with
          | ends a hactive hdue hnext hpayouts =>
              exact .ends _ i now election a rfl hsession hactive hdue hnext hpayouts
          | goesOn a hactive hdue hsame hpayouts =>
              refine .quiet _ ?_ hpayouts
              rw [Staking.step, hsame, hactive]
          | waits hactive hfirst hpayouts =>
              refine .quiet _ ?_ hpayouts
              rw [Staking.step, hactive]
              rcases hfirst with hnone | hzero
              · rw [hnone]
              · rw [hzero]
                rfl
  | onFinalize now => exact hs.onFinalize now
  | rewardByIds points =>
      rw [Staking.step]
      unfold rewardByIds
      split
      · exact quiet_of_eras hs rfl
      · exact ⟨⟨hs.planned, hs.timely, hs.unstarted⟩, .quiet _ rfl rfl⟩
  | slash stash value => exact quiet_of_eras hs (doSlash_eras cfg stash value s)
  | offence stash spans chills forces =>
      exact quiet_of_eras hs (noteOffence_eras stash spans chills forces s)
  | outside native setter system => exact quiet_of_eras hs rfl

/-! ## The current era never goes back -/

variable (cfg) in
theorem newSession_currentEra_le (j : ℕ) (election : Election A) (s : State A) :
    s.currentEra.getD 0 ≤ (newSession cfg j election s).currentEra.getD 0 := by
  rcases newSession_plan cfg j election s with ⟨hcurrent, -⟩ | ⟨hcurrent, -⟩
  · rw [hcurrent]
  · rw [hcurrent]
    cases hera : s.currentEra with
    | none => simp
    | some era => simp [State.newPlannedEra, hera]

theorem Effect.currentEra_eq {s s' : State A} {origin : Origin A} {call : Call A}
    (h : Effect cfg origin call s s') : s'.currentEra = s.currentEra := by
  rcases h.eras_eq with heras | ⟨currentEra, depth, -, rfl⟩
  · exact congrArg EraRecords.currentEra heras
  · exact (clearEras_spec _ s).1

variable (cfg) in
theorem step_currentEra_le (s : State A) (act : Act A) :
    s.currentEra.getD 0 ≤ (Staking.step cfg s act).currentEra.getD 0 := by
  cases act with
  | call origin c =>
      rcases dispatch_cases cfg origin c s with hsame | heffect
      · rw [Staking.step, hsame]
      · rw [Staking.step, heffect.currentEra_eq]
  | genesisSessions first second =>
      rw [Staking.step]
      unfold genesisSessions
      split
      · exact Nat.le_refl _
      · rw [(startSession_frame 0 _).2.1]
        exact (newSession_currentEra_le cfg 0 first { s with session := some 0 }).trans
          (newSession_currentEra_le cfg 1 second _)
  | rotateSession now election =>
      rw [Staking.step]
      unfold rotateSession
      split
      · exact Nat.le_refl _
      · rename_i i hsession
        have hended := (endSession_ended cfg i now s).currentEra
        have hle := newSession_currentEra_le cfg (i + 2) election
          (startSession (i + 1) (endSession cfg i now { s with session := some (i + 1) }))
        rwa [(startSession_frame (i + 1) _).2.1, hended] at hle
  | onFinalize now =>
      rw [Staking.step]
      unfold onFinalize
      split <;> exact Nat.le_refl _
  | rewardByIds points =>
      rw [Staking.step]
      unfold rewardByIds
      split <;> exact Nat.le_refl _
  | slash stash value =>
      have heras := congrArg EraRecords.currentEra (doSlash_eras cfg stash value s)
      rw [Staking.step, show (doSlash cfg stash value s).currentEra = s.currentEra from heras]
  | offence stash spans chills forces =>
      have heras := congrArg EraRecords.currentEra (noteOffence_eras stash spans chills forces s)
      rw [Staking.step,
        show (noteOffence stash spans chills forces s).currentEra = s.currentEra from heras]
  | outside => exact Nat.le_refl _

end Setheum.Staking
