import Mathlib.Data.List.Find
import Mathlib.Data.List.TakeWhile
import Setheum.Staking.OffenceEffects

/-!
# The era that an offence is charged to

A report names the session of an offence. The pallet remembers the first session of each era that
is still bonded, and finds the era of the report there, or in the first session of the active era.
As long as the history is at least one era deep, this is the era that was active in that session,
and the report is dropped exactly when that era is no longer bonded.

* `eraStep` — a step of the chain starts the next era or leaves the eras as they are.
* `slashEra_of_session` — which era a report is charged to, and when it is dropped.
-/

set_option autoImplicit false

namespace Setheum.Staking

open Machine

variable {A : Type} [DecidableEq A] {cfg : OffenceConfig A}

/-! ## Windows of numbered things -/

section Windows

variable {α : Type}

theorem drop_length_takeWhile (p : α → Bool) (l : List α) :
    l.drop (l.takeWhile p).length = l.dropWhile p := by
  induction l with
  | nil => rfl
  | cons a l ih =>
      by_cases ha : p a
      · rw [List.takeWhile_cons_of_pos ha, List.dropWhile_cons_of_pos ha]
        exact ih
      · rw [List.takeWhile_cons_of_neg ha, List.dropWhile_cons_of_neg ha]
        rfl

theorem mem_dropWhile_of_not {p : α → Bool} {l : List α} {a : α} (ha : a ∈ l) (hp : ¬ p a) :
    a ∈ l.dropWhile p := by
  rw [← List.takeWhile_append_dropWhile (p := p) (l := l)] at ha
  rcases List.mem_append.mp ha with ha | ha
  · exact absurd (List.mem_takeWhile_imp ha) hp
  · exact ha

theorem dropWhile_range' (m n first : ℕ) :
    (List.range' m n).dropWhile (fun e => decide (e < first))
      = List.range' (max m first) (m + n - max m first) := by
  induction n generalizing m with
  | zero =>
      have hlength : m + 0 - max m first = 0 := by omega
      rw [hlength]
      rfl
  | succ n ih =>
      rw [List.range'_succ]
      by_cases hm : m < first
      · rw [List.dropWhile_cons_of_pos (by simpa using hm), ih]
        congr 1 <;> omega
      · rw [List.dropWhile_cons_of_neg (by simpa using hm), ← List.range'_succ]
        congr 1 <;> omega

theorem find?_reverse_range' {m n e : ℕ} (he : e < m + n) :
    (List.range' m n).reverse.find? (fun x => decide (x ≤ e))
      = if m ≤ e then some e else none := by
  induction n with
  | zero =>
      rw [if_neg (by omega)]
      rfl
  | succ n ih =>
      rw [List.range'_concat, List.reverse_append, Nat.one_mul]
      by_cases hlast : m + n ≤ e
      · obtain rfl : e = m + n := by omega
        rw [if_pos (by omega)]
        exact List.find?_cons_of_pos (by simp)
      · rw [← ih (by omega)]
        exact List.find?_cons_of_neg (by simpa using hlast)

end Windows

/-! ## What a step does to the eras -/

/-- The active era. -/
def OffenceState.era (s : OffenceState A) : Option ℕ :=
  s.staking.activeEra.map ActiveEraInfo.index

/-- The eras stay as they are, and the session may go on. -/
structure Quiet (s t : OffenceState A) : Prop where
  era : t.era = s.era
  bondedEras : t.bondedEras = s.bondedEras
  firstSession : ∀ e, s.era = some e →
    t.staking.erasStartSessionIndex e = s.staking.erasStartSessionIndex e
  session : ∀ i, s.staking.session = some i → ∃ i', t.staking.session = some i' ∧ i ≤ i'

/-- The next era starts with a session. -/
structure Starts (cfg : OffenceConfig A) (j : ℕ) (s t : OffenceState A) : Prop where
  era : t.era = some s.staking.nextActiveEra
  bondedEras : t.bondedEras = (s.bondedEras ++ [(s.staking.nextActiveEra, j)]).dropWhile
    fun e => decide (e.1 < s.staking.nextActiveEra - cfg.bondingDuration)
  firstSession : t.staking.erasStartSessionIndex s.staking.nextActiveEra = some j
  session : t.staking.session = some j
  later : ∀ i, s.staking.session = some i → i < j

inductive EraStep (cfg : OffenceConfig A) (s t : OffenceState A) : Prop
  | quiet (h : Quiet s t)
  | starts (j : ℕ) (h : Starts cfg j s t)

omit [DecidableEq A] in
theorem Quiet.of_eras {s t : OffenceState A} (h : t.staking.eras = s.staking.eras)
    (hbonded : t.bondedEras = s.bondedEras) : Quiet s t where
  era := congrArg (Option.map ActiveEraInfo.index) (congrArg EraRecords.activeEra h)
  bondedEras := hbonded
  firstSession e _ := congrFun (congrArg EraRecords.erasStartSessionIndex h) e
  session i hi := ⟨i, (congrArg EraRecords.session h).trans hi, le_refl i⟩

/-! ### Planning -/

/-- Planning an era keeps the first session of the current one in a history that is not empty. -/
theorem newSession_firstSession {cfg : Config A} (j : ℕ) (election : Election A) {s : State A}
    {c : ℕ} (hcurrent : s.currentEra = some c) (hdepth : 1 ≤ s.historyDepth) :
    (newSession cfg j election s).erasStartSessionIndex c = s.erasStartSessionIndex c := by
  have hfirst : ∀ t : State A, (newSession cfg j election s).eras = t.eras →
      (newSession cfg j election s).erasStartSessionIndex c = t.erasStartSessionIndex c :=
    fun t ht => congrFun (congrArg EraRecords.erasStartSessionIndex ht) c
  rcases newSession_cases cfg j election s with hsame | ⟨hnone, -⟩ | ⟨exposures, hnext⟩
  · exact hfirst s hsame
  · rw [hnone] at hcurrent
    cases hcurrent
  · have hnew : s.newPlannedEra = c + 1 := by simp [State.newPlannedEra, hcurrent]
    rw [hfirst _ hnext]
    unfold triggerNewEra storeStakersInfo clearOldEra
    rw [hnew]
    rw [show (planEra (c + 1) j s).historyDepth = s.historyDepth from rfl]
    split
    · -- the era that leaves the history is an earlier one
      have hne : c ≠ c - s.historyDepth := by omega
      simp [clearEraInformation, planEra, hne]
    · simp [planEra]

/-! ### Starting an era -/

omit [DecidableEq A] in
variable (cfg) in
theorem bondEra_bondedEras (n j : ℕ) (s : OffenceState A) :
    (bondEra cfg n j s).bondedEras = (s.bondedEras ++ [(n, j)]).dropWhile
      fun e => decide (e.1 < n - cfg.bondingDuration) := by
  unfold bondEra
  dsimp only
  split
  · exact drop_length_takeWhile _ _
  · rename_i hle
    have hzero : n - cfg.bondingDuration = 0 := by omega
    rw [hzero]
    cases hall : s.bondedEras ++ [(n, j)] with
    | nil => rfl
    | cons e rest => rw [List.dropWhile_cons_of_neg (by simp)]

variable (cfg) in
theorem startEraOf_bondedEras (j : ℕ) (s : OffenceState A) :
    (startEraOf cfg j s).bondedEras = (s.bondedEras ++ [(s.staking.nextActiveEra, j)]).dropWhile
      fun e => decide (e.1 < s.staking.nextActiveEra - cfg.bondingDuration) := by
  have happlyOf : ∀ (era now : ℕ) (slashes : List (PendingSlash A)) (t : OffenceState A),
      (slashes.foldl (applyOf cfg era now) t).bondedEras = t.bondedEras := by
    intro era now slashes
    induction slashes with
    | nil => exact fun _ => rfl
    | cons slash slashes ih => exact fun t => ih _
  have happlyEra : ∀ (now : ℕ) (eras : List ℕ) (t : OffenceState A),
      (eras.foldl (applyEra cfg now) t).bondedEras = t.bondedEras := by
    intro now eras
    induction eras with
    | nil => exact fun _ => rfl
    | cons era eras ih => exact fun t => (ih _).trans (happlyOf era now _ _)
  have happly : ∀ (n : ℕ) (t : OffenceState A),
      (applyUnappliedSlashes cfg n t).bondedEras = t.bondedEras := by
    intro n t
    unfold applyUnappliedSlashes
    split
    · rfl
    · exact happlyEra _ _ t
  unfold startEraOf
  rw [happly, bondEra_bondedEras]
  rfl

/-- The eras when a session starts, before the next one is planned. -/
theorem startSessionOf_eraStep {j : ℕ} {s t : OffenceState A} (hera : t.era = s.era)
    (hbonded : t.bondedEras = s.bondedEras)
    (hfirst : ∀ e, s.era = some e →
      t.staking.erasStartSessionIndex e = s.staking.erasStartSessionIndex e)
    (hsession : t.staking.session = some j) (hlater : ∀ i, s.staking.session = some i → i < j)
    (hdue : ∀ k, t.staking.erasStartSessionIndex t.staking.nextActiveEra = some k → k ≤ j → k = j) :
    EraStep cfg s (startSessionOf cfg j t) := by
  have hnext : t.staking.nextActiveEra = s.staking.nextActiveEra := by
    unfold OffenceState.era at hera
    unfold State.nextActiveEra
    cases hs : s.staking.activeEra <;> cases ht : t.staking.activeEra <;> simp_all
  rcases startSessionOf_cases cfg j t with ⟨hof, hstart, k, hk, hle⟩ | ⟨hof, hsame⟩
  · have heras : (startEraOf cfg j t).staking.eras = (startEra t.staking).eras :=
      eras_of_funds (startEraOf_funds cfg j t)
    obtain rfl := hdue k hk hle
    rw [hof]
    refine .starts k ⟨?_, ?_, ?_, ?_, hlater⟩
    · rw [← hnext]
      exact congrArg (Option.map ActiveEraInfo.index) (congrArg EraRecords.activeEra heras)
    · rw [startEraOf_bondedEras, hbonded, hnext]
    · rw [← hnext, ← hk]
      exact congrFun (congrArg EraRecords.erasStartSessionIndex heras) _
    · exact (congrArg EraRecords.session heras).trans hsession
  · rw [hof]
    refine .quiet ⟨hera, hbonded, hfirst, fun i hi => ⟨j, hsession, ?_⟩⟩
    exact (hlater i hi).le

omit [DecidableEq A] in
/-- An era that is due starts with the next session. -/
theorem Clocked.due {s : State A} (hs : Clocked s.eras) {i k : ℕ} (hi : s.session = some i)
    (hk : s.erasStartSessionIndex s.nextActiveEra = some k) : k = i + 1 := by
  have htimely := hs.timely i hi
  obtain ⟨c, hc, hle⟩ := hs.planned _ k hk
  have hc' : s.currentEra = some c := hc
  cases hactive : s.activeEra with
  | none =>
      have hnext : s.nextActiveEra = 0 := by simp [State.nextActiveEra, hactive]
      simp only [Timely, State.eras, hactive] at htimely
      rw [hnext] at hk
      rcases htimely c hc' with ⟨-, hfirst⟩ | hforgotten
      · rw [hk] at hfirst
        exact Option.some.inj hfirst
      · rw [hk] at hforgotten
        cases hforgotten
  | some a =>
      have hnext : s.nextActiveEra = a.index + 1 := by simp [State.nextActiveEra, hactive]
      simp only [Timely, State.eras, hactive] at htimely
      rw [hnext] at hk hle
      rcases htimely with hcurrent | ⟨-, hfirst⟩
      · rw [hc', Option.some.injEq] at hcurrent
        omega
      · rw [hk] at hfirst
        exact Option.some.inj hfirst

/-- Planning leaves the eras that are there as they are. -/
theorem EraStep.newSession {s t : OffenceState A} (h : EraStep cfg s t) (j : ℕ)
    (election : Election A)
    (hkept : ∀ e, t.era = some e →
      (newSession cfg.toConfig j election t.staking).erasStartSessionIndex e
        = t.staking.erasStartSessionIndex e) :
    EraStep cfg s (t.onStaking (newSession cfg.toConfig j election)) := by
  obtain ⟨hactive, hsession, -⟩ := newSession_frame cfg.toConfig j election t.staking
  have hera : (t.onStaking (Staking.newSession cfg.toConfig j election)).era = t.era :=
    congrArg (Option.map ActiveEraInfo.index) hactive
  cases h with
  | quiet h =>
      refine .quiet ⟨hera.trans h.era, h.bondedEras, fun e he => ?_, fun i hi => ?_⟩
      · exact (hkept e (h.era.trans he)).trans (h.firstSession e he)
      · obtain ⟨i', hi', hle⟩ := h.session i hi
        exact ⟨i', hsession.trans hi', hle⟩
  | starts k h =>
      exact .starts k ⟨hera.trans h.era, h.bondedEras, (hkept _ h.era).trans h.firstSession,
        hsession.trans h.session, h.later⟩

/-! ### Steps -/

theorem genesisSessionsOf_eraStep {s : OffenceState A} (hs : Clocked s.staking.eras)
    (first second : Election A) : EraStep cfg s (genesisSessionsOf cfg first second s) := by
  unfold genesisSessionsOf
  cases hsession : s.staking.session with
  | some i => exact .quiet (.of_eras rfl rfl)
  | none =>
      obtain ⟨-, hactive⟩ := hs.unstarted hsession
      have hera : s.era = none := congrArg (Option.map ActiveEraInfo.index) hactive
      obtain ⟨hactive₁, hsession₁, -⟩ :=
        newSession_frame cfg.toConfig 0 first { s.staking with session := some 0 }
      obtain ⟨hactive₂, hsession₂, -⟩ := newSession_frame cfg.toConfig 1 second
        (newSession cfg.toConfig 0 first { s.staking with session := some 0 })
      refine startSessionOf_eraStep ?_ rfl (fun e he => ?_) (hsession₂.trans hsession₁)
        (fun i hi => ?_) fun k _ hle => Nat.le_zero.mp hle
      · exact congrArg (Option.map ActiveEraInfo.index) (hactive₂.trans hactive₁)
      · rw [hera] at he
        cases he
      · rw [hsession] at hi
        cases hi

theorem rotateSessionOf_eraStep {s : OffenceState A} (hs : Clocked s.staking.eras)
    (hdepth : 1 ≤ s.staking.historyDepth) (now : ℕ) (election : Election A) :
    EraStep cfg s (rotateSessionOf cfg now election s) := by
  unfold rotateSessionOf
  cases hsession : s.staking.session with
  | none => exact .quiet (.of_eras rfl rfl)
  | some i =>
      dsimp only
      have hended := endSession_ended cfg.toConfig i now s.staking
      have hended' : (endSession cfg.toConfig i now
          { s.staking with session := some (i + 1) }).historyDepth = s.staking.historyDepth := by
        rcases endSession_cases cfg.toConfig i now { s.staking with session := some (i + 1) } with
          ⟨a, -, -, hend⟩ | ⟨-, hsame⟩
        · rw [hend]
          unfold endEra
          split
          · rfl
          · unfold recordPayout mint
            split <;> rfl
        · rw [hsame]
      generalize hs₁ : s.onStaking (fun t => endSession cfg.toConfig i now
        { t with session := some (i + 1) }) = s₁
      have hended₁ : Ended i s.staking s₁.staking := by rw [← hs₁]; exact hended
      have hdepth₁ : s₁.staking.historyDepth = s.staking.historyDepth := by
        rw [← hs₁]; exact hended'
      have hnext : s₁.staking.nextActiveEra = s.staking.nextActiveEra := by
        unfold State.nextActiveEra
        rw [hended₁.activeEra]
      have hstarted : EraStep cfg s (startSessionOf cfg (i + 1) s₁) := by
        refine startSessionOf_eraStep ?_ (by rw [← hs₁]; rfl) (fun e _ => ?_) hended₁.session
          (fun i' hi' => ?_) fun k hk _ => ?_
        · exact congrArg (Option.map ActiveEraInfo.index) hended₁.activeEra
        · rw [hended₁.erasStartSessionIndex]
        · rw [hsession, Option.some.injEq] at hi'
          omega
        · rw [hended₁.erasStartSessionIndex, hnext] at hk
          exact hs.due hsession hk
      -- the era that is active then is the current one
      have heras : (startSessionOf cfg (i + 1) s₁).staking.eras
          = (startSession (i + 1) s₁.staking).eras :=
        eras_of_funds (startSessionOf_funds cfg (i + 1) s₁)
      have hsettled : Settled (startSessionOf cfg (i + 1) s₁).staking.eras := by
        rw [heras]
        cases hactive : s.staking.activeEra with
        | none => exact (startSession_first hs hsession hactive hended₁).1
        | some a => exact (startSession_next hs hsession hactive hended₁).1
      refine hstarted.newSession (i + 2) election fun e he => ?_
      have hdepth₂ : (startSessionOf cfg (i + 1) s₁).staking.historyDepth
          = s.staking.historyDepth := by
        refine (congrArg EraRecords.historyDepth heras).trans (.trans ?_ hdepth₁)
        unfold startSession
        split
        · split <;> rfl
        · rfl
      refine newSession_firstSession (i + 2) election ?_ (hdepth₂ ▸ hdepth)
      obtain ⟨a, ha, rfl⟩ := Option.map_eq_some_iff.mp he
      simp only [Settled, State.eras, ha] at hsettled
      exact hsettled

theorem callOf_eraStep {s : OffenceState A} (hs : Clocked s.staking.eras) (origin : Origin A)
    (c : Call A) (hdepth : 1 ≤ (callOf cfg origin c s).staking.historyDepth) :
    EraStep cfg s (callOf cfg origin c s) := by
  have hstaking : (callOf cfg origin c s).staking
      = (dispatch cfg.toConfig origin c).commit s.staking := rfl
  rcases dispatch_cases cfg.toConfig origin c s.staking with hsame | heffect
  · exact .quiet (.of_eras (by rw [hstaking, hsame]) rfl)
  · rcases heffect.eras_eq with heras | ⟨currentEra, depth, hcurrent, hcleared⟩
    · exact .quiet (.of_eras (by rw [hstaking, heras]) rfl)
    · obtain ⟨-, hactive, hsession, -, hfirst⟩ := clearEras_spec
        (List.range' s.staking.lastKept (currentEra - depth - s.staking.lastKept)) s.staking
      rw [hstaking, hcleared] at hdepth
      have hdepth' : 1 ≤ depth := hdepth
      rw [hcleared] at hstaking
      refine .quiet ⟨?_, rfl, fun e he => ?_, fun i hi => ⟨i, ?_, le_refl i⟩⟩
      · unfold OffenceState.era
        rw [hstaking]
        exact congrArg _ hactive
      · obtain ⟨a, ha, rfl⟩ := Option.map_eq_some_iff.mp he
        have hle : currentEra ≤ a.index + 1 := by
          cases hi : s.staking.session with
          | none =>
              have hnone := (hs.unstarted hi).2
              have hsome : s.staking.eras.activeEra = some a := ha
              rw [hsome] at hnone
              cases hnone
          | some i =>
              have htimely := hs.timely i hi
              simp only [Timely, State.eras, ha, hcurrent, Option.some.injEq] at htimely
              omega
        rw [hstaking]
        refine (hfirst a.index).trans (if_neg fun hmem => ?_)
        rw [List.mem_range'_1] at hmem
        omega
      · rw [hstaking]
        exact hsession.trans hi

variable (cfg) in
theorem onOffence_bondedEras (offenders : List (OffenceDetails A)) (slashFraction : List Perbill)
    (slashSession : ℕ) (s : OffenceState A) :
    (onOffence cfg offenders slashFraction slashSession s).bondedEras = s.bondedEras := by
  have hoffend : ∀ (e n : ℕ) (t : OffenceState A) (x : OffenceDetails A × Perbill),
      (offend cfg e n t x).bondedEras = t.bondedEras := by
    intro e n t x
    unfold offend
    dsimp only
    split
    · rfl
    · split
      · rfl
      · unfold settleSlash
        dsimp only
        split <;> rfl
  have hfold : ∀ (e n : ℕ) (xs : List (OffenceDetails A × Perbill)) (t : OffenceState A),
      (xs.foldl (offend cfg e n) t).bondedEras = t.bondedEras := by
    intro e n xs
    induction xs with
    | nil => exact fun _ => rfl
    | cons x xs ih => exact fun t => (ih _).trans (hoffend e n t x)
  unfold onOffence
  split
  · rfl
  · split
    · rfl
    · exact hfold _ _ _ _

/-- **A step of the chain starts the next era or leaves the eras as they are.** -/
theorem eraStep {s : OffenceState A} (hs : Clocked s.staking.eras)
    (hdepth : 1 ≤ s.staking.historyDepth) (act : OffenceAct A)
    (hdepth' : 1 ≤ (offenceStep cfg s act).staking.historyDepth) :
    EraStep cfg s (offenceStep cfg s act) := by
  cases act with
  | call origin c => exact callOf_eraStep hs origin c hdepth'
  | genesisSessions first second => exact genesisSessionsOf_eraStep hs first second
  | rotateSession now election => exact rotateSessionOf_eraStep hs hdepth now election
  | onFinalize now =>
      refine .quiet ?_
      unfold offenceStep onFinalize OffenceState.onStaking
      dsimp only
      split
      · rename_i index hactive
        have hera : s.era = some index := congrArg (Option.map ActiveEraInfo.index) hactive
        exact ⟨hera.symm, rfl, fun _ _ => rfl, fun i hi => ⟨i, hi, le_refl i⟩⟩
      · exact .of_eras rfl rfl
  | rewardByIds points =>
      refine .quiet ?_
      unfold offenceStep rewardByIds OffenceState.onStaking
      dsimp only
      split
      · exact .of_eras rfl rfl
      · exact ⟨rfl, rfl, fun _ _ => rfl, fun i hi => ⟨i, hi, le_refl i⟩⟩
  | offence offenders slashFraction slashSession =>
      exact .quiet (.of_eras
        (eras_of_reaches (onOffence_staking cfg offenders slashFraction slashSession s))
        (onOffence_bondedEras cfg offenders slashFraction slashSession s))
  | cancelDeferredSlash authorized era slashIndices =>
      unfold offenceStep
      dsimp only
      split
      · rename_i s' hok
        obtain ⟨hstaking, hbonded⟩ := cancelDeferredSlash_frame hok
        exact .quiet (.of_eras (by rw [hstaking]) hbonded)
      · exact .quiet (.of_eras rfl rfl)
  | setInvulnerables invulnerables => exact .quiet (.of_eras rfl rfl)
  | outside native setter system => exact .quiet (.of_eras rfl rfl)

/-! ## The bonded eras -/

/-- What is remembered of the eras: those that are still bonded, up to the active one, with sessions
that have started. -/
structure Bonded (cfg : OffenceConfig A) (s : OffenceState A) : Prop where
  clocked : Clocked s.staking.eras
  depth : 1 ≤ s.staking.historyDepth
  unstarted : s.era = none → s.bondedEras = []
  window : ∀ a, s.era = some a → s.bondedEras.map Prod.fst
    = List.range' (a - cfg.bondingDuration) (min a cfg.bondingDuration + 1)
  firstSession : ∀ a, s.era = some a →
    ∃ j, s.staking.erasStartSessionIndex a = some j ∧ (a, j) ∈ s.bondedEras
  started : ∀ e ∈ s.bondedEras, ∃ i, s.staking.session = some i ∧ e.2 ≤ i

omit [DecidableEq A] in
theorem OffenceGenesis.bonded {s : OffenceState A} (h : OffenceGenesis s)
    (hdepth : 1 ≤ s.staking.historyDepth) : Bonded cfg s := by
  have hera : s.era = none := congrArg (Option.map ActiveEraInfo.index) h.staking.activeEra
  refine ⟨h.staking.clocked, hdepth, fun _ => h.bondedEras, fun a ha => ?_, fun a ha => ?_,
    fun e he => ?_⟩
  · rw [hera] at ha
    cases ha
  · rw [hera] at ha
    cases ha
  · rw [h.bondedEras] at he
    cases he

omit [DecidableEq A] in
/-- The next active era. -/
theorem OffenceState.nextActiveEra_eq (s : OffenceState A) :
    s.staking.nextActiveEra = s.era.elim 0 (· + 1) := by
  unfold OffenceState.era State.nextActiveEra
  cases s.staking.activeEra <;> rfl

omit [DecidableEq A] in
theorem Bonded.next_window {s : OffenceState A} (h : Bonded cfg s) (j : ℕ) :
    (s.bondedEras ++ [(s.staking.nextActiveEra, j)]).map Prod.fst
      = List.range' (s.era.elim 0 (· - cfg.bondingDuration))
        (s.era.elim 1 (min · cfg.bondingDuration + 2)) := by
  rw [List.map_append, s.nextActiveEra_eq]
  cases hera : s.era with
  | none =>
      rw [h.unstarted hera]
      rfl
  | some a =>
      have hlast : a + 1 = a - cfg.bondingDuration + 1 * (min a cfg.bondingDuration + 1) := by omega
      simp only [Option.elim_some]
      rw [h.window a hera, List.map_singleton, hlast, ← List.range'_concat]

theorem Bonded.step {s : OffenceState A} (h : Bonded cfg s) (act : OffenceAct A)
    (hdepth : 1 ≤ (offenceStep cfg s act).staking.historyDepth) :
    Bonded cfg (offenceStep cfg s act) := by
  have hclocked : Clocked (offenceStep cfg s act).staking.eras :=
    (offenceStep_staking cfg s act).invariant (P := fun t => Clocked t.eras)
      (fun t act ht _ => (ht.step cfg.toConfig act).1) h.clocked
  cases eraStep h.clocked h.depth act hdepth with
  | quiet hquiet =>
      refine ⟨hclocked, hdepth, fun hnone => ?_, fun a ha => ?_, fun a ha => ?_, fun e he => ?_⟩
      · rw [hquiet.bondedEras]
        exact h.unstarted (hquiet.era.symm.trans hnone)
      · rw [hquiet.bondedEras]
        exact h.window a (hquiet.era.symm.trans ha)
      · have ha' := hquiet.era.symm.trans ha
        rw [hquiet.bondedEras, hquiet.firstSession a ha']
        exact h.firstSession a ha'
      · rw [hquiet.bondedEras] at he
        obtain ⟨i, hi, hle⟩ := h.started e he
        obtain ⟨i', hi', hle'⟩ := hquiet.session i hi
        exact ⟨i', hi', hle.trans hle'⟩
  | starts j hstarts =>
      have hera : ∀ a, (offenceStep cfg s act).era = some a → a = s.staking.nextActiveEra :=
        fun a ha => Option.some.inj (ha.symm.trans hstarts.era)
      refine ⟨hclocked, hdepth, fun hnone => ?_, fun a ha => ?_, fun a ha => ?_, fun e he => ?_⟩
      · rw [hstarts.era] at hnone
        cases hnone
      · obtain rfl := hera a ha
        rw [hstarts.bondedEras]
        have hmap := (List.dropWhile_map (f := Prod.fst) (p := fun e =>
          decide (e < s.staking.nextActiveEra - cfg.bondingDuration))
          (l := s.bondedEras ++ [(s.staking.nextActiveEra, j)])).symm
        refine hmap.trans ?_
        rw [h.next_window j, dropWhile_range', s.nextActiveEra_eq]
        cases s.era with
        | none => simp
        | some a =>
            simp only [Option.elim_some]
            congr 1 <;> omega
      · obtain rfl := hera a ha
        refine ⟨j, hstarts.firstSession, ?_⟩
        rw [hstarts.bondedEras]
        refine mem_dropWhile_of_not (List.mem_append_right _ List.mem_cons_self) ?_
        simp
      · rw [hstarts.bondedEras] at he
        refine ⟨j, hstarts.session, ?_⟩
        rcases List.mem_append.mp ((List.dropWhile_sublist _).subset he) with he | he
        · obtain ⟨i, hi, hle⟩ := h.started e he
          exact hle.trans (hstarts.later i hi).le
        · rw [List.mem_singleton.mp he]

/-! ## Sessions of the past -/

/-- Session `k`, during which era `e` was active, has started, and the bonded eras that had started
until then are those up to `e`. -/
structure Since (k e : ℕ) (s : OffenceState A) : Prop where
  era : ∃ a, s.era = some a ∧ e ≤ a
  session : ∃ i, s.staking.session = some i ∧ k ≤ i
  split : ∀ x ∈ s.bondedEras, x.2 ≤ k ↔ x.1 ≤ e

omit [DecidableEq A] in
theorem Bonded.since {s : OffenceState A} (h : Bonded cfg s) {k e : ℕ}
    (hsession : s.staking.session = some k) (hera : s.era = some e) : Since k e s := by
  refine ⟨⟨e, hera, le_refl e⟩, ⟨k, hsession, le_refl k⟩, fun x hx => ?_⟩
  obtain ⟨i, hi, hle⟩ := h.started x hx
  rw [hsession, Option.some.injEq] at hi
  have hmem : x.1 ∈ s.bondedEras.map Prod.fst := List.mem_map_of_mem hx
  rw [h.window e hera, List.mem_range'_1] at hmem
  omega

theorem Since.step {s : OffenceState A} {k e : ℕ} (h : Since k e s) (hs : Bonded cfg s)
    (act : OffenceAct A) (hdepth : 1 ≤ (offenceStep cfg s act).staking.historyDepth) :
    Since k e (offenceStep cfg s act) := by
  obtain ⟨a, ha, hle⟩ := h.era
  obtain ⟨i, hi, hki⟩ := h.session
  cases eraStep hs.clocked hs.depth act hdepth with
  | quiet hquiet =>
      obtain ⟨i', hi', hle'⟩ := hquiet.session i hi
      refine ⟨⟨a, hquiet.era.trans ha, hle⟩, ⟨i', hi', hki.trans hle'⟩, fun x hx => ?_⟩
      rw [hquiet.bondedEras] at hx
      exact h.split x hx
  | starts j hstarts =>
      have hnext : s.staking.nextActiveEra = a + 1 := by
        rw [s.nextActiveEra_eq, ha]
        rfl
      have hlater := hstarts.later i hi
      refine ⟨⟨a + 1, hnext ▸ hstarts.era, by omega⟩, ⟨j, hstarts.session, by omega⟩,
        fun x hx => ?_⟩
      rw [hstarts.bondedEras] at hx
      rcases List.mem_append.mp ((List.dropWhile_sublist _).subset hx) with hx | hx
      · exact h.split x hx
      · rw [List.mem_singleton.mp hx, hnext]
        dsimp only
        omega

omit [DecidableEq A] in
/-- The era that is found for a session of the past. -/
theorem Since.slashEra_eq {s : OffenceState A} {k e a : ℕ} (h : Since k e s) (hs : Bonded cfg s)
    (ha : s.era = some a) :
    slashEra s a k = (if a ≤ e + cfg.bondingDuration then some e else none) ∧
      passesFilter s k = decide (a ≤ e + cfg.bondingDuration) := by
  obtain ⟨a', ha', hle⟩ := h.era
  rw [ha, Option.some.injEq] at ha'
  subst ha'
  obtain ⟨j, hj, hmem⟩ := hs.firstSession a ha
  have hwindow := hs.window a ha
  have hactive := h.split (a, j) hmem
  refine ⟨?_, ?_⟩
  · unfold slashEra
    rw [hj, Option.getD_some]
    by_cases hjk : j ≤ k
    · rw [if_pos hjk, if_pos (by omega)]
      have hae := hactive.mp hjk
      exact congrArg some (le_antisymm hae hle)
    · rw [if_neg hjk]
      have hfind : s.bondedEras.reverse.find? (fun x => decide (x.2 ≤ k))
          = s.bondedEras.reverse.find? ((fun x => decide (x ≤ e)) ∘ Prod.fst) := by
        refine List.find?_congr fun x hx => ?_
        exact decide_eq_decide.mpr (h.split x (List.mem_reverse.mp hx))
      rw [hfind, ← List.find?_map, List.map_reverse, hwindow, find?_reverse_range' (by omega)]
      split <;> split <;> first | rfl | omega
  · unfold passesFilter
    cases hbonded : s.bondedEras with
    | nil =>
        rw [hbonded] at hmem
        cases hmem
    | cons x rest =>
        have hsplit := h.split x (hbonded ▸ List.mem_cons_self)
        rw [hbonded, List.map_cons, List.range'_succ] at hwindow
        have hfirst : x.1 = a - cfg.bondingDuration := (List.cons.inj hwindow).1
        simp only [List.head?_cons, Option.any_some]
        rw [decide_eq_decide, hsplit, hfirst]
        omega

variable (cfg) in
/-- **A report is charged to the era that was active in the session of the offence**, and it is
dropped exactly when that era is no longer bonded, in every run that keeps the history at least one
era deep. -/
theorem slashEra_of_session {s : OffenceState A} (hgenesis : OffenceGenesis s)
    (hdepth : 1 ≤ s.staking.historyDepth) {acts acts' : List (OffenceAct A)}
    (hkept : StepsMeet (offenceStep cfg)
      (fun t act => 1 ≤ (offenceStep cfg t act).staking.historyDepth) s (acts ++ acts'))
    {k e a : ℕ} (hsession : (run (offenceStep cfg) s acts).staking.session = some k)
    (hera : (run (offenceStep cfg) s acts).era = some e)
    (hera' : (run (offenceStep cfg) s (acts ++ acts')).era = some a) :
    slashEra (run (offenceStep cfg) s (acts ++ acts')) a k
        = (if a ≤ e + cfg.bondingDuration then some e else none) ∧
      passesFilter (run (offenceStep cfg) s (acts ++ acts')) k
        = decide (a ≤ e + cfg.bondingDuration) := by
  obtain ⟨hbefore, hafter⟩ := StepsMeet.append.mp hkept
  have hbonded : Bonded cfg (run (offenceStep cfg) s acts) :=
    run_invariant (fun t act ht hok => ht.step act hok) (hgenesis.bonded hdepth) hbefore
  have hsince := run_invariant
    (P := fun t => Bonded cfg t ∧ Since k e t)
    (fun t act ht hok => ⟨ht.1.step act hok, ht.2.step ht.1 act hok⟩)
    ⟨hbonded, hbonded.since hsession hera⟩ hafter
  rw [← run_append] at hsince
  exact hsince.2.slashEra_eq hsince.1 hera'

/-- In era 2 a report for session 0 is charged to era 0. -/
theorem slashEra_of_session_sample :
    let last := run (offenceStep sampleOffenceConfig) sampleOffenceGenesis
      (sampleFirstSession ++ sampleSessions)
    slashEra last 2 0 = some 0 ∧ passesFilter last 0 = true :=
  slashEra_of_session sampleOffenceConfig sampleOffenceGenesis_genesis (by decide)
    (by decide) (k := 0) (e := 0) (a := 2) (by decide) (by decide) (by decide)

end Setheum.Staking
