import Setheum.Staking.Books

/-!
# How ended eras and claims age

An era's payout is recorded when the era ends and stays, with the reward points it is split by,
until the era is cleared; an era that leaves the history is cleared then. A ledger remembers the
claims of the eras in the history, through every rewriting and every move, and a new ledger starts
with all of them claimed.

* `step_reward_cases` — a recorded payout was recorded before the step or by it.
* `step_ledger_cases` — a ledger after a step descends from one before it or is new.
-/

set_option autoImplicit false

namespace Setheum.Staking

variable {A : Type} [DecidableEq A] {cfg : Config A} {s s' s'' : State A} {e : ℕ}

/-! ## Recorded payouts -/

/-- An era has the same payout and the same points in two states, and is still in the history if it
was. -/
structure Kept (e : ℕ) (s s' : State A) : Prop where
  reward : s'.erasValidatorReward e = s.erasValidatorReward e
  points : s'.erasRewardPoints e = s.erasRewardPoints e
  lastKept : s.lastKept ≤ e → s'.lastKept ≤ e

omit [DecidableEq A] in
theorem Kept.refl (e : ℕ) (s : State A) : Kept e s s := ⟨rfl, rfl, id⟩

omit [DecidableEq A] in
theorem Kept.trans (h : Kept e s s') (h' : Kept e s' s'') : Kept e s s'' where
  reward := h'.reward.trans h.reward
  points := h'.points.trans h.points
  lastKept := h'.lastKept ∘ h.lastKept

omit [DecidableEq A] in
theorem Kept.of_eras (h : s'.eras = s.eras) (e : ℕ) : Kept e s s' where
  reward := congrFun (congrArg EraRecords.erasValidatorReward h) e
  points := congrFun (congrArg EraRecords.erasRewardPoints h) e
  lastKept hle := by
    have hcurrent : s'.currentEra = s.currentEra := congrArg EraRecords.currentEra h
    have hdepth : s'.historyDepth = s.historyDepth := congrArg EraRecords.historyDepth h
    unfold State.lastKept at hle ⊢
    rwa [hcurrent, hdepth]

omit [DecidableEq A] in
/-- Cleared eras have no payout, and the others keep what they have. -/
theorem clearEras_records (eras : List ℕ) (s : State A) :
    (∀ e ∈ eras, (clearEras eras s).erasValidatorReward e = none) ∧
      ∀ e ∉ eras, (clearEras eras s).erasValidatorReward e = s.erasValidatorReward e ∧
        (clearEras eras s).erasRewardPoints e = s.erasRewardPoints e := by
  induction eras generalizing s with
  | nil => exact ⟨nofun, fun e _ => ⟨rfl, rfl⟩⟩
  | cons era eras ih =>
      obtain ⟨hcleared, hkept⟩ := ih (clearEraInformation era s)
      have hfold : clearEras (era :: eras) s = clearEras eras (clearEraInformation era s) := rfl
      rw [hfold]
      constructor
      · intro e he
        by_cases hmem : e ∈ eras
        · exact hcleared e hmem
        · have hera : e = era := (List.mem_cons.mp he).resolve_right hmem
          rw [(hkept e hmem).1, hera]
          exact Function.update_self _ _ _
      · intro e he
        obtain ⟨hne, hmem⟩ := not_or.mp (he ∘ List.mem_cons.mpr)
        obtain ⟨hreward, hpoints⟩ := hkept e hmem
        exact ⟨hreward.trans (Function.update_of_ne hne _ _),
          hpoints.trans (Function.update_of_ne hne _ _)⟩

omit [DecidableEq A] in
/-- **A changed history depth clears what leaves the history.** -/
theorem history_kept {currentEra depth : ℕ} (hcurrent : s.currentEra = some currentEra)
    {R : ℕ × ℕ}
    (hR : (clearEras (List.range' s.lastKept (currentEra - depth - s.lastKept)) s
      ).erasValidatorReward e = some R) :
    Kept e s { clearEras (List.range' s.lastKept (currentEra - depth - s.lastKept)) s with
      historyDepth := depth } := by
  obtain ⟨hcleared, hkept⟩ :=
    clearEras_records (List.range' s.lastKept (currentEra - depth - s.lastKept)) s
  have hmem : e ∉ List.range' s.lastKept (currentEra - depth - s.lastKept) := by
    intro hmem
    rw [hcleared e hmem] at hR
    cases hR
  obtain ⟨hreward, hpoints⟩ := hkept e hmem
  refine ⟨hreward, hpoints, fun hle => ?_⟩
  have hcurrent' := (clearEras_spec
    (List.range' s.lastKept (currentEra - depth - s.lastKept)) s).1
  show (clearEras _ s).currentEra.getD 0 - depth ≤ e
  rw [hcurrent', hcurrent, Option.getD_some]
  rw [List.mem_range'_1] at hmem
  omega

/-- **Planning an era clears the one that leaves the history.** -/
theorem newSession_kept (j : ℕ) (election : Election A) (s : State A) {R : ℕ × ℕ}
    (hR : (newSession cfg j election s).erasValidatorReward e = some R) :
    Kept e s (newSession cfg j election s) := by
  rcases newSession_cases cfg j election s with hsame | ⟨hnone, hfirst⟩ | ⟨exposures, hnext⟩
  · exact .of_eras hsame e
  · refine Kept.trans ?_ (.of_eras hfirst e)
    refine ⟨rfl, rfl, fun _ => ?_⟩
    simp [State.lastKept, planEra]
  · have hR' : (triggerNewEra cfg j exposures s).erasValidatorReward e = some R := by
      rw [← hR]
      exact (congrFun (congrArg EraRecords.erasValidatorReward hnext) e).symm
    refine Kept.trans ?_ (.of_eras hnext e)
    have hdepth : (planEra s.newPlannedEra j s).historyDepth = s.historyDepth := rfl
    have hnew : s.newPlannedEra ≤ s.currentEra.getD 0 + 1 := by
      unfold State.newPlannedEra
      split <;> simp [*]
    unfold triggerNewEra storeStakersInfo clearOldEra at hR' ⊢
    rw [hdepth] at hR' ⊢
    dsimp only at hR' ⊢
    split at hR'
    · rename_i hold
      rw [if_pos hold]
      have hne : e ≠ s.newPlannedEra - (s.historyDepth + 1) := by
        rintro rfl
        simp [clearEraInformation, planEra] at hR'
      refine ⟨Function.update_of_ne hne _ _, Function.update_of_ne hne _ _, fun hle => ?_⟩
      simp only [State.lastKept, clearEraInformation, planEra, Option.getD_some] at hle ⊢
      omega
    · rename_i hold
      rw [if_neg hold]
      refine ⟨rfl, rfl, fun _ => ?_⟩
      simp only [State.lastKept, planEra, Option.getD_some]
      omega

omit [DecidableEq A] in
theorem startSession_kept (j : ℕ) (s : State A) (e : ℕ) : Kept e s (startSession j s) := by
  rcases startSession_cases j s with ⟨hstarted, -⟩ | ⟨hsame, -⟩
  · rw [hstarted]
    exact ⟨rfl, rfl, id⟩
  · rw [hsame]
    exact .refl e s

/-- The payout of an era is on record in the events. -/
def Logged (e : ℕ) (R : ℕ × ℕ) (s : State A) : Prop :=
  ∃ p ∈ s.eraPayouts, p.era = e ∧ p.setterPayout = R.1 ∧ p.nativePayout = R.2

theorem recordPayout_kept {era : ℕ} {payout : ℕ × ℕ × ℕ} (hne : e ≠ era) (s : State A) :
    Kept e s (recordPayout cfg era payout s) where
  reward := Function.update_of_ne hne _ _
  points := by
    unfold recordPayout mint
    split <;> rfl
  lastKept := by
    unfold recordPayout mint
    split <;> exact id

theorem recordPayout_logged {era : ℕ} {payout : ℕ × ℕ × ℕ} {R : ℕ × ℕ}
    (hR : (recordPayout cfg era payout s).erasValidatorReward era = some R) :
    Logged era R (recordPayout cfg era payout s) := by
  have hpayout : (recordPayout cfg era payout s).erasValidatorReward era
      = some (payout.1, payout.2.1) := Function.update_self _ _ _
  rw [hpayout] at hR
  cases hR
  exact ⟨_, List.mem_cons_self, rfl, rfl, rfl⟩

variable (cfg) in
/-- The end of a session records the payout of the active era or keeps what there is. -/
theorem endSession_reward_cases (i now : ℕ) (s : State A) {R : ℕ × ℕ}
    (hR : (endSession cfg i now s).erasValidatorReward e = some R) :
    Kept e s (endSession cfg i now s) ∨
      (e = endedEras s.activeEra ∧ Logged e R (endSession cfg i now s)) := by
  rcases endSession_cases cfg i now s with ⟨a, hactive, -, hend⟩ | ⟨-, hsame⟩
  · rw [hend] at hR ⊢
    unfold endEra at hR ⊢
    split at hR
    · exact .inl (.refl e s)
    · by_cases he : e = a.index
      · subst he
        exact .inr ⟨by rw [hactive]; rfl, recordPayout_logged hR⟩
      · exact .inl (recordPayout_kept he s)
  · rw [hsame]
    exact .inl (.refl e s)

/-- **A recorded payout was recorded before a step or by it.** -/
theorem step_reward_cases
    (hpast : ∀ e R, s.erasValidatorReward e = some R → e < endedEras s.activeEra) (act : Act A)
    {R : ℕ × ℕ} (hR : (step cfg s act).erasValidatorReward e = some R) :
    Kept e s (step cfg s act) ∨
      (e = endedEras s.activeEra ∧ Logged e R (step cfg s act)) := by
  cases act with
  | call origin c =>
      left
      rcases dispatch_cases cfg origin c s with hsame | heffect
      · rw [step, hsame]
        exact .refl e s
      · rw [step] at hR ⊢
        rcases heffect.eras_eq with heras | ⟨currentEra, depth, hcurrent, hcleared⟩
        · exact .of_eras heras e
        · rw [hcleared] at hR ⊢
          exact history_kept hcurrent hR
  | genesisSessions first second =>
      left
      rw [step] at hR ⊢
      unfold genesisSessions at hR ⊢
      split
      · exact .refl e s
      · rename_i hsession
        rw [hsession] at hR
        have hstarted := startSession_kept 0
          (newSession cfg 1 second (newSession cfg 0 first { s with session := some 0 })) e
        have hR₂ := hstarted.reward.symm.trans hR
        have hsecond := newSession_kept 1 second _ hR₂
        have hfirst := newSession_kept 0 first _ (hsecond.reward.symm.trans hR₂)
        have hsession' : Kept e s { s with session := some 0 } := ⟨rfl, rfl, id⟩
        exact ((hsession'.trans hfirst).trans hsecond).trans hstarted
  | rotateSession now election =>
      rw [step] at hR ⊢
      unfold rotateSession at hR ⊢
      split
      · exact .inl (.refl e s)
      · rename_i i hsession
        rw [hsession] at hR
        dsimp only at hR
        generalize hended : endSession cfg i now { s with session := some (i + 1) } = s₁ at hR ⊢
        have hstarted := startSession_kept (i + 1) s₁ e
        have hnew := newSession_kept (i + 2) election _ hR
        have hR₁ := hstarted.reward.symm.trans (hnew.reward.symm.trans hR)
        rw [← hended] at hR₁
        rcases endSession_reward_cases cfg i now _ hR₁ with hkept | ⟨he, p, hp, hera⟩
        · rw [hended] at hkept
          have hsession' : Kept e s { s with session := some (i + 1) } := ⟨rfl, rfl, id⟩
          exact .inl (((hsession'.trans hkept).trans hstarted).trans hnew)
        · refine .inr ⟨he, p, ?_, hera⟩
          rw [(newSession_frame cfg (i + 2) election _).2.2, (startSession_frame (i + 1) s₁).2.2.2,
            ← hended]
          exact hp
  | onFinalize now =>
      rw [step]
      unfold onFinalize
      split <;> exact .inl ⟨rfl, rfl, id⟩
  | rewardByIds points =>
      left
      rw [step] at hR ⊢
      unfold rewardByIds at hR ⊢
      split
      · exact .refl e s
      · rename_i a hactive
        rw [hactive] at hR
        have hlt := hpast e R hR
        rw [hactive] at hlt
        have hne : e ≠ a.index := Nat.ne_of_lt hlt
        exact ⟨rfl, Function.update_of_ne hne _ _, id⟩
  | slash stash value => exact .inl (.of_eras (doSlash_eras cfg stash value s) e)
  | offence stash spans chills forces =>
      exact .inl (.of_eras (noteOffence_eras stash spans chills forces s) e)
  | outside => exact .inl ⟨rfl, rfl, id⟩

variable (cfg) in
/-- **A step logs at most one payout, that of the era it ends.** -/
theorem step_log_cases (hs : Clocked s.eras) (act : Act A) :
    endedEras s.activeEra ≤ endedEras (step cfg s act).activeEra ∧
      ((step cfg s act).eraPayouts = s.eraPayouts ∨
        endedEras s.activeEra < endedEras (step cfg s act).activeEra ∧
          ∃ p, p.era = endedEras s.activeEra ∧
            (step cfg s act).eraPayouts = p :: s.eraPayouts) := by
  obtain ⟨-, htick⟩ := hs.step cfg act
  generalize step cfg s act = s' at htick ⊢
  cases htick with
  | quiet hended hpayouts => exact ⟨Nat.le_of_eq hended.symm, .inl hpayouts⟩
  | ends i now election a hact hsession hactive hdue hnext hpayouts =>
      rw [hactive, hnext, hpayouts]
      have hlt : endedEras (some a) < endedEras (some ⟨a.index + 1, none⟩) :=
        Nat.lt_succ_self a.index
      refine ⟨Nat.le_of_lt hlt, ?_⟩
      unfold endEra
      split
      · exact .inl rfl
      · exact .inr ⟨hlt, _, rfl, rfl⟩

omit [DecidableEq A] in
/-- The eras that have ended come before the current one. -/
theorem Clocked.endedEras_le (hs : Clocked s.eras) :
    endedEras s.activeEra ≤ s.currentEra.getD 0 := by
  cases hactive : s.activeEra with
  | none => exact Nat.zero_le _
  | some a =>
      cases hsession : s.session with
      | none =>
          have hnone : s.activeEra = none := (hs.unstarted hsession).2
          rw [hactive] at hnone
          cases hnone
      | some i =>
          have htimely := hs.timely i hsession
          simp only [Timely, State.eras, hactive] at htimely
          rcases htimely with hcurrent | ⟨hcurrent, -⟩
          · rw [hcurrent]
            exact Nat.le_refl a.index
          · rw [hcurrent]
            exact Nat.le_succ a.index

/-! ## Claims -/

/-- How a ledger comes from one before a step: it has the same claims, or those in the history and
a new one. -/
inductive Descends (s : State A) (l l' : StakingLedger A) : Prop
  | same (hstash : l'.stash = l.stash) (hclaims : l'.claimedRewards = l.claimedRewards)
  | claims (era : ℕ) (hstash : l'.stash = l.stash) (hnew : era ∉ retainedRewards s l)
      (hclaims : l'.claimedRewards = (claim s l era).claimedRewards)

section Claims

variable {l l' : StakingLedger A} {origin : Origin A} {call : Call A}

omit [DecidableEq A] in
theorem Descends.stash_eq (h : Descends s l l') : l'.stash = l.stash := by
  cases h with
  | same hstash => exact hstash
  | claims era hstash => exact hstash

omit [DecidableEq A] in
theorem mem_retainedRewards : e ∈ retainedRewards s l ↔ e ∈ l.claimedRewards ∧ s.lastKept ≤ e := by
  simp [retainedRewards]

omit [DecidableEq A] in
theorem mem_claim {era : ℕ} :
    e ∈ (claim s l era).claimedRewards ↔ e = era ∨ e ∈ retainedRewards s l := by
  simp [claim, List.mem_orderedInsert]

omit [DecidableEq A] in
/-- A claim of an era in the history is remembered. -/
theorem Descends.mem (h : Descends s l l') (he : e ∈ l.claimedRewards) (hkept : s.lastKept ≤ e) :
    e ∈ l'.claimedRewards := by
  cases h with
  | same hstash hclaims =>
      rw [hclaims]
      exact he
  | claims era hstash hnew hclaims =>
      rw [hclaims, mem_claim]
      exact .inr (mem_retainedRewards.mpr ⟨he, hkept⟩)

omit [DecidableEq A] in
/-- The claims stay in strict order, which is what a binary search among them needs. -/
theorem Descends.sorted (h : Descends s l l') (hl : l.claimedRewards.Pairwise (· < ·)) :
    l'.claimedRewards.Pairwise (· < ·) := by
  cases h with
  | same hstash hclaims =>
      rw [hclaims]
      exact hl
  | claims era hstash hnew hclaims =>
      rw [hclaims]
      have hretained : (retainedRewards s l).Pairwise (· < ·) := hl.filter _
      have hinsert : (claim s l era).claimedRewards.Pairwise (· ≤ ·) :=
        (hretained.imp Nat.le_of_lt).orderedInsert era
      have hnodup : (claim s l era).claimedRewards.Nodup :=
        (List.perm_orderedInsert (· ≤ ·) era _).nodup_iff.mpr
          (List.nodup_cons.mpr ⟨hnew, hretained.imp Nat.ne_of_lt⟩)
      exact (hinsert.and hnodup).imp fun h => Nat.lt_of_le_of_ne h.1 h.2

/-- A ledger after some payments is one before them with more at stake. -/
theorem foldl_makePayout_ledger (payments : List (A × ℕ × ℕ)) {s : State A} {controller : A}
    (h : (payments.foldl (makePayout cfg) s).ledger controller = some l') :
    ∃ l, s.ledger controller = some l ∧ l'.stash = l.stash ∧
      l'.claimedRewards = l.claimedRewards := by
  induction payments generalizing s with
  | nil => exact ⟨l', h, rfl, rfl⟩
  | cons payment payments ih =>
      obtain ⟨m, hm, hstash, hclaims⟩ := ih h
      have hm' : (makePayout cfg s payment).bonds.ledger controller = some m := hm
      rcases makePayout_bonds_cases cfg s payment with hsame | ⟨c, l, hl, -, hstored⟩
      · rw [hsame] at hm'
        exact ⟨m, hm', hstash, hclaims⟩
      · rw [hstored] at hm'
        simp only [BondRecords.store, Function.update_apply] at hm'
        split at hm'
        · rename_i hc
          cases hm'
          exact ⟨l, hc ▸ hl, hstash, hclaims⟩
        · exact ⟨m, hm', hstash, hclaims⟩

omit [DecidableEq A] in
theorem Rewrite.claimedRewards_eq (h : Rewrite cfg s l l') :
    l'.claimedRewards = l.claimedRewards := by
  cases h <;> rfl

omit [DecidableEq A] in
theorem withdraw_claimedRewards (l : StakingLedger A) (currentEra : Option ℕ) :
    (l.withdraw currentEra).claimedRewards = l.claimedRewards := by
  cases currentEra <;> rfl

/-- **A ledger after a call** descends from one before it, or is new with all eras of the history
claimed. -/
theorem Effect.ledger_cases (h : Effect cfg origin call s s') {controller : A}
    (hl' : s'.ledger controller = some l') :
    (∃ c l, s.ledger c = some l ∧ Descends s l l') ∨
      l'.claimedRewards = List.range' s.lastKept (s.currentEra.getD 0 - s.lastKept) := by
  have hstay : ∀ {c m}, s.ledger c = some m →
      ∃ c l, s.ledger c = some l ∧ Descends s l m := fun hm => ⟨_, _, hm, .same rfl rfl⟩
  -- an update of one ledger leaves the others as they are
  have hupdate : ∀ {c d : A} {m n : StakingLedger A},
      Function.update s.ledger c (some m) d = some n → n = m ∨ s.ledger d = some n := by
    intro c d m n hn
    rw [Function.update_apply] at hn
    split at hn
    · exact .inl (Option.some.inj hn).symm
    · exact .inr hn
  cases h with
  | bond stash controller' value payee system hbonded hledger =>
      rcases hupdate hl' with rfl | hm
      · exact .inr rfl
      · exact .inl (hstay hm)
  | rewrite controller' m m' hm hm' =>
      rcases hupdate hl' with rfl | hm
      · exact .inl ⟨controller', m, hm, .same hm'.stash_eq hm'.claimedRewards_eq⟩
      · exact .inl (hstay hm)
  | withdraw controller' m n horigin hcall hm hkept =>
      rcases hupdate hl' with rfl | hm
      · exact .inl ⟨controller', m, hm, .same (m.withdraw_stash _) (withdraw_claimedRewards m _)⟩
      · exact .inl (hstay hm)
  | kill stash controller' spans hbonded =>
      have hkill := congrArg BondRecords.ledger (kill_bonds stash controller' spans s)
      have hl'' := (congrFun hkill controller).symm.trans hl'
      dsimp only at hl''
      rw [Function.update_apply] at hl''
      split at hl''
      · cases hl''
      · exact .inl (hstay hl'')
  | setController stash oldController controller' hbonded hledger hne =>
      cases hold : s.ledger oldController with
      | none =>
          simp only [moveLedger, hold] at hl'
          exact .inl (hstay hl')
      | some m =>
          simp only [moveLedger, hold, Function.update_apply] at hl'
          split at hl'
          · cases hl'
            exact .inl (hstay hold)
          · split at hl'
            · cases hl'
            · exact .inl (hstay hl')
  | roles => exact .inl (hstay hl')
  | limits => exact .inl (hstay hl')
  | forcing => exact .inl (hstay hl')
  | payout validatorStash controller' m era payout hpayout hbonded hledger hclaim =>
      obtain ⟨n, hn, hstash, hclaims⟩ := foldl_makePayout_ledger _ hl'
      rcases hupdate hn with rfl | hn'
      · exact .inl ⟨controller', m, hledger, .claims era hstash hclaim hclaims⟩
      · exact .inl ⟨controller, n, hn', .same hstash hclaims⟩
  | history currentEra depth hcurrent =>
      have hbonds := clearEras_bonds (List.range' s.lastKept (currentEra - depth - s.lastKept)) s
      have hl'' := congrFun (congrArg BondRecords.ledger hbonds) controller
      exact .inl (hstay (hl''.symm.trans hl'))

variable (cfg) in
/-- **A ledger after a step** descends from one before it, or is new with all eras of the history
claimed. -/
theorem step_ledger_cases (s : State A) (act : Act A) {controller : A}
    (hl' : (step cfg s act).ledger controller = some l') :
    (∃ c l, s.ledger c = some l ∧ Descends s l l') ∨
      l'.claimedRewards = List.range' s.lastKept (s.currentEra.getD 0 - s.lastKept) := by
  rcases step_bonds_cases cfg s act with hsame | ⟨origin, c, rfl⟩ | ⟨stash, value, rfl⟩
  · have hl := (congrFun (congrArg BondRecords.ledger hsame) controller).symm.trans hl'
    exact .inl ⟨controller, l', hl, .same rfl rfl⟩
  · rcases dispatch_cases cfg origin c s with hsame | heffect
    · rw [step, hsame] at hl'
      exact .inl ⟨controller, l', hl', .same rfl rfl⟩
    · exact heffect.ledger_cases hl'
  · rcases doSlash_bonds_cases cfg stash value s with hsame | ⟨c, l, -, hl, hstored⟩
    · have hl := (congrFun (congrArg BondRecords.ledger hsame) controller).symm.trans hl'
      exact .inl ⟨controller, l', hl, .same rfl rfl⟩
    · have hl'' := (congrFun (congrArg BondRecords.ledger hstored) controller).symm.trans hl'
      simp only [BondRecords.store, Function.update_apply] at hl''
      split at hl''
      · cases hl''
        exact .inl ⟨c, l, hl, .same rfl rfl⟩
      · exact .inl ⟨controller, l', hl'', .same rfl rfl⟩

/-- Every ledger's claims are in strict order. -/
def ClaimsSorted (s : State A) : Prop :=
  ∀ controller l, s.ledger controller = some l → l.claimedRewards.Pairwise (· < ·)

omit [DecidableEq A] in
theorem Genesis.claimsSorted (hs : Genesis s) : ClaimsSorted s := by
  intro controller l hl
  rw [hs.ledger controller] at hl
  cases hl

variable (cfg) in
theorem ClaimsSorted.step (h : ClaimsSorted s) (act : Act A) : ClaimsSorted (step cfg s act) := by
  intro controller l' hl'
  rcases step_ledger_cases cfg s act hl' with ⟨c, l, hl, hdescends⟩ | hnew
  · exact hdescends.sorted (h c l hl)
  · rw [hnew]
    exact List.pairwise_lt_range'

end Claims

end Setheum.Staking
