import Mathlib.Algebra.BigOperators.Finprod
import Setheum.Incentives.Model

/-!
# What is staked

Whoever stakes liquidity shares gets as many shares of both reward pools, and loses as many on
taking them back. Claims and the accumulation of rewards move rewards only.

* `doDepositDexShare_ok`, `doWithdrawDexShare_ok` — staking and its reverse.
* `Sound` — the pools agree, and the account that keeps the liquidity shares holds what they add
  up to.
* `sound_of_run` — after every run of calls, and an account's shares are what it staked and did not
  take back.
-/

set_option autoImplicit false

namespace Setheum.Incentives

open StorageMap

variable {A E : Type} [DecidableEq A] {cfg : Config A E} {s₀ s s' : State A E}

/-! ## What leaves the stakes alone -/

/-- Neither the shares of the pools change nor the liquidity shares kept for them. -/
structure Untouched (cfg : Config A E) (s₀ s : State A E) : Prop where
  free : ∀ c, c.isDexShareCurrencyId = true →
    s.ledger.free c cfg.accountId = s₀.ledger.free c cfg.accountId
  share : cfg.rewards.share s.rewards = cfg.rewards.share s₀.rewards

theorem Untouched.refl (s : State A E) : Untouched cfg s s := ⟨fun _ _ => rfl, rfl⟩

/-- A transfer between two other accounts. -/
theorem preserves_transfer {c : CurrencyId} {source dest : A} {n : ℕ}
    (hsource : source ≠ cfg.accountId) (hdest : dest ≠ cfg.accountId) :
    Dispatch.Preserves (Untouched cfg s₀) (transfer cfg c source dest n) := by
  refine Dispatch.preserves_onComponent_of fun s l hs hl => ⟨fun c' hc' => ?_, hs.share⟩
  have hfree := Ledger.transfer_free hl c' cfg.accountId
  rw [if_neg fun h => hsource h.2.symm, if_neg fun h => hdest h.2.symm] at hfree
  exact hfree.trans (hs.free c' hc')

theorem preserves_deposit {c : CurrencyId} {who : A} {n : ℕ} (hwho : who ≠ cfg.accountId) :
    Dispatch.Preserves (Untouched cfg s₀) (deposit cfg c who n) := by
  refine Dispatch.preserves_onComponent_of fun s l hs hl => ⟨fun c' hc' => ?_, hs.share⟩
  have hfree := Ledger.deposit_free hl c' cfg.accountId
  rw [if_neg fun h => hwho h.2.symm] at hfree
  exact hfree.trans (hs.free c' hc')

theorem preserves_payout {who : A} {pool : PoolId} {n : ℕ} (hwho : who ≠ cfg.accountId) :
    Dispatch.Preserves (Untouched cfg s₀) (payout cfg who pool n) := by
  cases pool with
  | DexIncentive c =>
      exact Dispatch.preserves_ignore (preserves_transfer cfg.dexIncentivePool_ne hwho)
  | DexPremium c =>
      exact Dispatch.preserves_ignore (preserves_transfer cfg.dexPremiumPool_ne hwho)

theorem preserves_claimRewards {who : A} {pool : PoolId} (hwho : who ≠ cfg.accountId) :
    Dispatch.Preserves (Untouched cfg s₀) (claimRewards cfg who pool) := by
  refine Dispatch.preserves_get_bind fun s hs => ?_
  refine Dispatch.preserves_bind (Dispatch.preserves_set ⟨hs.free, ?_⟩) fun _ =>
    preserves_payout hwho
  exact (cfg.rewards.share_claimRewards who pool s.rewards).trans hs.share

theorem preserves_updates (updates : List (CurrencyId × ℕ)) :
    Dispatch.Preserves (Untouched cfg s₀) (updateDexIncentiveRewards updates) ∧
      Dispatch.Preserves (Untouched cfg s₀) (updateDexPremiumRewards cfg updates) := by
  constructor
  · refine Dispatch.preserves_forM fun _ => ?_
    refine Dispatch.preserves_bind Dispatch.preserves_ensure fun _ => ?_
    exact Dispatch.preserves_modify fun s hs => ⟨hs.free, hs.share⟩
  · refine Dispatch.preserves_forM fun _ => ?_
    refine Dispatch.preserves_bind Dispatch.preserves_ensure fun _ => ?_
    refine Dispatch.preserves_bind Dispatch.preserves_ensure fun _ => ?_
    exact Dispatch.preserves_modify fun s hs => ⟨hs.free, hs.share⟩

theorem preserves_issueReward {pool : PoolId} {c : CurrencyId} {vault : A} {reward : ℕ}
    (hvault : vault ≠ cfg.accountId) :
    Dispatch.Preserves (Untouched cfg s₀) (issueReward cfg pool c vault reward) := by
  unfold issueReward
  split
  · exact Dispatch.preserves_pure 0
  · refine Dispatch.preserves_bind (Dispatch.preserves_attempt (preserves_deposit hvault))
      fun issued => ?_
    cases issued with
    | error e => exact Dispatch.preserves_pure 0
    | ok u =>
        refine Dispatch.preserves_bind (Dispatch.preserves_modify fun s hs => ⟨hs.free, ?_⟩)
          fun _ => Dispatch.preserves_pure reward
        exact (cfg.rewards.share_accumulate pool reward s.rewards).trans hs.share

theorem preserves_accumulatePools (pools : List (PoolId × ℕ)) (total : ℕ × ℕ) :
    Dispatch.Preserves (Untouched cfg s₀) (accumulatePools cfg pools total) := by
  induction pools generalizing total with
  | nil => exact Dispatch.preserves_pure total
  | cons pool pools ih =>
      refine Dispatch.preserves_bind ?_ ih
      unfold accumulatePool
      split
      · exact Dispatch.preserves_pure total
      · refine Dispatch.preserves_bind Dispatch.preserves_get fun s => ?_
        split
        · exact Dispatch.preserves_bind (preserves_issueReward cfg.dexIncentivePool_ne)
            fun _ => Dispatch.preserves_pure _
        · exact Dispatch.preserves_bind (preserves_issueReward cfg.dexPremiumPool_ne)
            fun _ => Dispatch.preserves_pure _

theorem preserves_accumulateReward (now : ℕ) :
    Dispatch.Preserves (Untouched cfg s₀) (accumulateReward cfg now) := by
  refine Dispatch.preserves_bind Dispatch.preserves_get fun s => ?_
  refine Dispatch.preserves_bind Dispatch.preserves_ensure fun _ => ?_
  split
  · exact Dispatch.preserves_bind (preserves_accumulatePools _ _) fun _ =>
      Dispatch.preserves_pure _
  · exact Dispatch.preserves_pure _

theorem preserves_foreign (f : Foreign cfg) :
    Dispatch.Preserves (Untouched cfg s₀) (foreign cfg f) := by
  refine Dispatch.preserves_onComponent_of fun s l hs hl => ⟨fun c hc => ?_, hs.share⟩
  cases hrun : f.run s.ledger with
  | none =>
      rw [hrun] at hl
      cases hl
  | some l' =>
      rw [hrun] at hl
      cases hl
      exact (f.untouched _ _ hrun c hc).trans (hs.free c hc)

/-- A successful call that preserves the stakes leaves them as they were. -/
theorem Untouched.of_ok {α : Type} {x : IncentivesM A E α} {a : α}
    (hx : ∀ s₀, Dispatch.Preserves (Untouched cfg s₀) x) (h : x.run s = .ok a s') :
    Untouched cfg s s' := by
  have hs := hx s s (Untouched.refl s)
  rwa [Dispatch.commit_of_ok h] at hs

/-! ## Staking and its reverse -/

section Staking

variable {who : A} {lp : CurrencyId} {n : ℕ} {u : Unit}

/-- The two pools that a liquidity share is staked in. -/
def Pools (lp : CurrencyId) (pool : PoolId) : Prop :=
  pool = .DexIncentive lp ∨ pool = .DexPremium lp

instance (lp : CurrencyId) (pool : PoolId) : Decidable (Pools lp pool) :=
  inferInstanceAs (Decidable (_ ∨ _))

theorem transfer_ok {c : CurrencyId} {source dest : A}
    (h : (transfer cfg c source dest n).run s = .ok u s') :
    ∃ l, Ledger.transfer cfg.rules c source dest n s.ledger = .ok l ∧
      s' = { s with ledger := l } := by
  obtain ⟨l, hl, rfl⟩ := Dispatch.run_onComponent_ok.mp h
  exact ⟨l, hl, rfl⟩

/-- **Staking moves the liquidity shares to the account that keeps them and adds as many shares of
both pools.** -/
theorem doDepositDexShare_ok (hwho : who ≠ cfg.accountId)
    (h : (doDepositDexShare cfg who lp n).run s = .ok u s') :
    lp.isDexShareCurrencyId = true ∧
      (∀ c, s'.ledger.free c cfg.accountId
        = s.ledger.free c cfg.accountId + if c = lp then n else 0) ∧
      ∀ pool a, cfg.rewards.share s'.rewards pool a =
        if Pools lp pool ∧ a = who then Balance.saturatingAdd (cfg.rewards.share s.rewards pool a) n
        else cfg.rewards.share s.rewards pool a := by
  simp only [doDepositDexShare, addShare, Dispatch.run_bind_ok, Dispatch.run_ensure_ok,
    Dispatch.run_modify_ok] at h
  obtain ⟨_, _, ⟨hlp, rfl⟩, _, s₁, htransfer, _, _, rfl, rfl⟩ := h
  obtain ⟨l, hl, rfl⟩ := transfer_ok htransfer
  refine ⟨hlp, fun c => ?_, fun pool a => ?_⟩
  · have hfree := Ledger.transfer_free hl c cfg.accountId
    rw [if_neg fun h => hwho h.2.symm, Nat.add_zero] at hfree
    simpa using hfree
  · simp only [cfg.rewards.share_addShare]
    unfold Pools
    by_cases ha : a = who
    · subst ha
      cases pool <;> simp
    · simp [ha]

theorem removeShare_ok {pool : PoolId} (hwho : who ≠ cfg.accountId)
    (h : (removeShare cfg who pool n).run s = .ok u s') :
    (∀ c, c.isDexShareCurrencyId = true →
      s'.ledger.free c cfg.accountId = s.ledger.free c cfg.accountId) ∧
      ∀ pool' a, cfg.rewards.share s'.rewards pool' a =
        if pool' = pool ∧ a = who then cfg.rewards.share s.rewards pool' a - n
        else cfg.rewards.share s.rewards pool' a := by
  simp only [removeShare, Dispatch.run_bind_ok, Dispatch.run_get_ok, Dispatch.run_set_ok] at h
  obtain ⟨_, _, ⟨rfl, rfl⟩, _, _, rfl, hpayout⟩ := h
  have hpaid := Untouched.of_ok (fun _ => preserves_payout hwho) hpayout
  refine ⟨hpaid.free, fun pool' a => ?_⟩
  rw [hpaid.share]
  exact cfg.rewards.share_removeShare who pool n s.rewards pool' a

/-- **Taking back moves them the other way**, and needs as many shares of both pools. -/
theorem doWithdrawDexShare_ok (hwho : who ≠ cfg.accountId)
    (h : (doWithdrawDexShare cfg who lp n).run s = .ok u s') :
    lp.isDexShareCurrencyId = true ∧ n ≤ cfg.rewards.share s.rewards (.DexIncentive lp) who ∧
      (∀ c, c.isDexShareCurrencyId = true →
        s'.ledger.free c cfg.accountId + (if c = lp then n else 0)
          = s.ledger.free c cfg.accountId) ∧
      ∀ pool a, cfg.rewards.share s'.rewards pool a =
        if Pools lp pool ∧ a = who then cfg.rewards.share s.rewards pool a - n
        else cfg.rewards.share s.rewards pool a := by
  simp only [doWithdrawDexShare, Dispatch.run_bind_ok, Dispatch.run_ensure_ok,
    Dispatch.run_get_ok] at h
  obtain ⟨_, _, ⟨hlp, rfl⟩, _, _, ⟨rfl, rfl⟩, _, _, ⟨⟨hle, -⟩, rfl⟩, _, s₁, htransfer, _, s₂,
    hincentive, hpremium⟩ := h
  obtain ⟨l, hl, rfl⟩ := transfer_ok htransfer
  obtain ⟨hfree₁, hshare₁⟩ := removeShare_ok hwho hincentive
  obtain ⟨hfree₂, hshare₂⟩ := removeShare_ok hwho hpremium
  refine ⟨hlp, hle, fun c hc => ?_, fun pool a => ?_⟩
  · have hfree := Ledger.transfer_free hl c cfg.accountId
    have hother : ¬ (c = lp ∧ cfg.accountId = who) := fun h => hwho h.2.symm
    rw [if_neg hother, Nat.add_zero] at hfree
    rw [hfree₂ c hc, hfree₁ c hc]
    simpa using hfree
  · rw [hshare₂, hshare₁]
    unfold Pools
    by_cases ha : a = who
    · subst ha
      cases pool <;> simp
    · simp [ha]

end Staking

/-! ## The invariant -/

/-- The shares of the two pools agree, and the account that keeps the liquidity shares holds what
the shares of all accounts add up to. -/
structure Sound (cfg : Config A E) (s : State A E) : Prop where
  agree : ∀ lp a, cfg.rewards.share s.rewards (.DexPremium lp) a
    = cfg.rewards.share s.rewards (.DexIncentive lp) a
  finite : ∀ lp, (Function.support (cfg.rewards.share s.rewards (.DexIncentive lp))).Finite
  backed : ∀ lp, lp.isDexShareCurrencyId = true → s.ledger.free lp cfg.accountId
    = ∑ᶠ a, cfg.rewards.share s.rewards (.DexIncentive lp) a

theorem Genesis.sound (h : Genesis cfg s) : Sound cfg s where
  agree lp a := by rw [h.share, h.share]
  finite lp := by
    have hzero : cfg.rewards.share s.rewards (.DexIncentive lp) = 0 := by
      funext a
      exact h.share _ a
    rw [hzero, Function.support_zero]
    exact Set.finite_empty
  backed lp hlp := by
    rw [h.free lp hlp, finsum_congr (h.share (.DexIncentive lp)), finsum_zero]

theorem Sound.untouched (hs : Sound cfg s) (h : Untouched cfg s s') : Sound cfg s' where
  agree := by
    rw [h.share]
    exact hs.agree
  finite := by
    rw [h.share]
    exact hs.finite
  backed := by
    rw [h.share]
    intro lp hlp
    rw [h.free lp hlp]
    exact hs.backed lp hlp

/-- Adding at one account adds to the sum. -/
theorem finsum_add_at {f g : A → ℕ} (hf : (Function.support f).Finite) {who : A} {n : ℕ}
    (h : ∀ a, g a = f a + if a = who then n else 0) :
    (Function.support g).Finite ∧ ∑ᶠ a, g a = ∑ᶠ a, f a + n := by
  have hone : (Function.support fun a => if a = who then n else 0).Finite := by
    refine (Set.finite_singleton who).subset fun a ha => ?_
    by_contra hne
    exact ha (if_neg hne)
  have hg : g = fun a => f a + if a = who then n else 0 := funext h
  constructor
  · rw [hg]
    exact (hf.union hone).subset (Function.support_add f _)
  · rw [hg, finsum_add_distrib hf hone, finsum_eq_single _ who fun a ha => if_neg ha, if_pos rfl]

/-- An account's shares are among those the module's account backs. -/
theorem Sound.share_le (hs : Sound cfg s) {lp : CurrencyId} (hlp : lp.isDexShareCurrencyId = true)
    (a : A) :
    cfg.rewards.share s.rewards (.DexIncentive lp) a ≤ s.ledger.free lp cfg.accountId := by
  rw [hs.backed lp hlp]
  exact single_le_finsum a (hs.finite lp) fun _ => Nat.zero_le _

/-- The stakes of `s'` are those of `s` with `staked` added and `unstaked` taken away. -/
def Moves (cfg : Config A E) (s s' : State A E) (staked unstaked : CurrencyId → A → ℕ) : Prop :=
  ∀ lp a, cfg.rewards.share s'.rewards (.DexIncentive lp) a + unstaked lp a
    = cfg.rewards.share s.rewards (.DexIncentive lp) a + staked lp a

/-- An amount at one currency and account. -/
def amountAt (lp : CurrencyId) (who : A) (n : ℕ) (lp' : CurrencyId) (a : A) : ℕ :=
  if a = who then if lp' = lp then n else 0 else 0

theorem Moves.of_untouched (h : Untouched cfg s s') : Moves cfg s s' 0 0 := fun lp a => by
  rw [h.share]

/-- Staking after something that leaves the stakes alone is staking. -/
theorem Moves.of_untouched_left {staked unstaked : CurrencyId → A → ℕ} (h : Untouched cfg s₀ s)
    (hmoves : Moves cfg s s' staked unstaked) : Moves cfg s₀ s' staked unstaked := fun lp a => by
  rw [hmoves lp a, h.share]

theorem Moves.of_untouched_right {staked unstaked : CurrencyId → A → ℕ}
    (hmoves : Moves cfg s₀ s staked unstaked) (h : Untouched cfg s s') :
    Moves cfg s₀ s' staked unstaked := fun lp a => by
  rw [h.share, hmoves lp a]

theorem Sound.doDepositDexShare {who : A} {lp : CurrencyId} {n : ℕ} {u : Unit} (hs : Sound cfg s)
    (hwho : who ≠ cfg.accountId) (h : (doDepositDexShare cfg who lp n).run s = .ok u s') :
    Sound cfg s' ∧ Moves cfg s s' (amountAt lp who n) 0 := by
  obtain ⟨hlp, hfree, hshare⟩ := doDepositDexShare_ok hwho h
  -- what the module's account holds bounds the shares, so that no addition saturates
  have hfits : cfg.rewards.share s.rewards (.DexIncentive lp) who + n ≤ Balance.maxValue := by
    have hle := hs.share_le hlp who
    have hmax := s'.ledger.free_le lp cfg.accountId
    rw [hfree, if_pos rfl] at hmax
    omega
  have hincentive : ∀ lp' a, cfg.rewards.share s'.rewards (.DexIncentive lp') a
      = cfg.rewards.share s.rewards (.DexIncentive lp') a + amountAt lp who n lp' a := by
    intro lp' a
    rw [hshare]
    unfold amountAt
    by_cases ha : a = who
    · subst ha
      by_cases hlp' : lp' = lp
      · subst hlp'
        rw [if_pos ⟨.inl rfl, rfl⟩, if_pos rfl, if_pos rfl, Balance.saturatingAdd_eq hfits]
      · simp [Pools, hlp']
    · simp [ha]
  have hsum : ∀ lp', _ ∧ _ := fun lp' => finsum_add_at (hs.finite lp') (hincentive lp')
  refine ⟨⟨fun lp' a => ?_, fun lp' => (hsum lp').1, fun lp' hlp' => ?_⟩, hincentive⟩
  · rw [hshare, hshare, hs.agree]
    simp [Pools]
  · rw [(hsum lp').2, hfree, hs.backed lp' hlp']

theorem Sound.doWithdrawDexShare {who : A} {lp : CurrencyId} {n : ℕ} {u : Unit} (hs : Sound cfg s)
    (hwho : who ≠ cfg.accountId) (h : (doWithdrawDexShare cfg who lp n).run s = .ok u s') :
    Sound cfg s' ∧ Moves cfg s s' 0 (amountAt lp who n) := by
  obtain ⟨hlp, hle, hfree, hshare⟩ := doWithdrawDexShare_ok hwho h
  have hincentive : ∀ lp' a, cfg.rewards.share s.rewards (.DexIncentive lp') a
      = cfg.rewards.share s'.rewards (.DexIncentive lp') a + amountAt lp who n lp' a := by
    intro lp' a
    rw [hshare]
    unfold amountAt
    by_cases ha : a = who
    · subst ha
      by_cases hlp' : lp' = lp
      · subst hlp'
        rw [if_pos ⟨.inl rfl, rfl⟩, if_pos rfl, if_pos rfl, Nat.sub_add_cancel hle]
      · simp [Pools, hlp']
    · simp [ha]
  have hfinite : ∀ lp',
      (Function.support (cfg.rewards.share s'.rewards (.DexIncentive lp'))).Finite := by
    intro lp'
    refine (hs.finite lp').subset fun a ha hzero => ha ?_
    rw [hincentive] at hzero
    omega
  have hsum : ∀ lp', _ ∧ _ := fun lp' => finsum_add_at (hfinite lp') (hincentive lp')
  refine ⟨⟨fun lp' a => ?_, hfinite, fun lp' hlp' => ?_⟩, fun lp' a => (hincentive lp' a).symm⟩
  · rw [hshare, hshare, hs.agree]
    simp [Pools]
  · have hbacked := hs.backed lp' hlp'
    rw [(hsum lp').2, ← hfree lp' hlp'] at hbacked
    exact Nat.add_right_cancel hbacked

/-! ## Runs -/

/-- What a call stakes if it succeeds. -/
def Call.staked : Call cfg → CurrencyId → A → ℕ
  | .depositDexShare who lp amount => amountAt lp who amount
  | .addLiquidity who lp shareIncrement _ => amountAt lp who shareIncrement
  | _ => 0

/-- What a call takes back if it succeeds. -/
def Call.unstaked : Call cfg → CurrencyId → A → ℕ
  | .withdrawDexShare who lp amount => amountAt lp who amount
  | .removeLiquidity who lp removeShare _ => amountAt lp who removeShare
  | _ => 0

/-- What a step adds to the stakes of an account: what its call stakes, if it succeeds. -/
def stepStaked (cfg : Config A E) (s : State A E) (call : Call cfg) (lp : CurrencyId) (a : A) : ℕ :=
  if Dispatch.succeeds (call.call cfg) s then call.staked lp a else 0

def stepUnstaked (cfg : Config A E) (s : State A E) (call : Call cfg) (lp : CurrencyId) (a : A) :
    ℕ :=
  if Dispatch.succeeds (call.call cfg) s then call.unstaked lp a else 0

/-- The total that an account stakes in a run. -/
def deposited (cfg : Config A E) (lp : CurrencyId) (a : A) : State A E → List (Call cfg) → ℕ
  | _, [] => 0
  | s, call :: calls =>
      stepStaked cfg s call lp a + deposited cfg lp a (step cfg s call) calls

/-- The total that it takes back. -/
def withdrawn (cfg : Config A E) (lp : CurrencyId) (a : A) : State A E → List (Call cfg) → ℕ
  | _, [] => 0
  | s, call :: calls =>
      stepUnstaked cfg s call lp a + withdrawn cfg lp a (step cfg s call) calls

/-- A transactional call that does on success what it is to do, does nothing else. -/
theorem Sound.transactional (hs : Sound cfg s) {call : Call cfg} {x : IncentivesM A E Unit}
    (hcall : call.call cfg = Dispatch.transactional x)
    (hx : ∀ u s', x.run s = .ok u s' → Sound cfg s' ∧ Moves cfg s s' call.staked call.unstaked) :
    Sound cfg (step cfg s call) ∧
      Moves cfg s (step cfg s call) (stepStaked cfg s call) (stepUnstaked cfg s call) := by
  unfold step Moves stepStaked stepUnstaked
  rw [hcall]
  rcases Dispatch.commit_transactional x s with ⟨u, s', hok, hc⟩ | ⟨hfails, hc⟩
  · rw [hc, Dispatch.succeeds_of_ok (Dispatch.run_transactional_ok.mpr hok)]
    exact hx u s' hok
  · rw [hc, hfails]
    exact ⟨hs, fun _ _ => rfl⟩

/-- What leaves the stakes alone stakes nothing. -/
theorem Sound.idle (hs : Sound cfg s) {x : IncentivesM A E Unit}
    (hx : ∀ s₀, Dispatch.Preserves (Untouched cfg s₀) x) {u : Unit} (h : x.run s = .ok u s') :
    Sound cfg s' ∧ Moves cfg s s' 0 0 :=
  ⟨hs.untouched (Untouched.of_ok hx h), Moves.of_untouched (Untouched.of_ok hx h)⟩

/-- **The step lemma.** -/
theorem Sound.step (hs : Sound cfg s) (call : Call cfg) :
    Sound cfg (step cfg s call) ∧
      Moves cfg s (Incentives.step cfg s call) (stepStaked cfg s call)
        (stepUnstaked cfg s call) := by
  cases call with
  | depositDexShare who lp amount =>
      exact hs.transactional rfl fun _ _ h => hs.doDepositDexShare who.2 h
  | withdrawDexShare who lp amount =>
      exact hs.transactional rfl fun _ _ h => hs.doWithdrawDexShare who.2 h
  | claimRewards who pool =>
      exact hs.transactional rfl fun _ _ h => hs.idle (fun _ => preserves_claimRewards who.2) h
  | updateDexIncentiveRewards updates =>
      exact hs.transactional rfl fun _ _ h => hs.idle (fun _ => (preserves_updates updates).1) h
  | updateDexPremiumRewards updates =>
      exact hs.transactional rfl fun _ _ h => hs.idle (fun _ => (preserves_updates updates).2) h
  | updateAccumulatePeriod blockNumber =>
      have hupdate : ∀ s₀, Dispatch.Preserves (Untouched cfg s₀)
          (updateAccumulatePeriod blockNumber) := fun _ =>
        Dispatch.preserves_modify fun s hs => ⟨hs.free, hs.share⟩
      exact hs.transactional rfl fun _ _ h => hs.idle hupdate h
  | onInitialize now =>
      -- accumulation is not transactional, and leaves the stakes alone however far it gets
      have haccumulate : Untouched cfg s (Incentives.step cfg s (.onInitialize now)) :=
        Dispatch.preserves_bind (preserves_accumulateReward now)
          (fun _ => Dispatch.preserves_pure ()) s (Untouched.refl s)
      refine ⟨hs.untouched haccumulate, fun lp a => ?_⟩
      rw [haccumulate.share]
      simp [stepStaked, stepUnstaked, Call.staked, Call.unstaked]
  | addLiquidity who lp shareIncrement before =>
      refine hs.transactional rfl fun _ s₂ h => ?_
      obtain ⟨_, s₁, hbefore, hstake⟩ := Dispatch.run_bind_ok.mp h
      have hforeign := Untouched.of_ok (fun _ => preserves_foreign before) hbefore
      obtain ⟨hs₂, hmoves⟩ := (hs.untouched hforeign).doDepositDexShare who.2 hstake
      exact ⟨hs₂, hmoves.of_untouched_left hforeign⟩
  | removeLiquidity who lp removeShare after =>
      refine hs.transactional rfl fun _ s₂ h => ?_
      obtain ⟨_, s₁, hunstake, hafter⟩ := Dispatch.run_bind_ok.mp h
      have hforeign := Untouched.of_ok (fun _ => preserves_foreign after) hafter
      obtain ⟨hs₁, hmoves⟩ := hs.doWithdrawDexShare who.2 hunstake
      exact ⟨hs₁.untouched hforeign, hmoves.of_untouched_right hforeign⟩
  | other f =>
      exact hs.transactional rfl fun _ _ h => hs.idle (fun _ => preserves_foreign f) h

/-- After a run, an account's shares are those it had with what it staked added and what it took
back away. -/
theorem Sound.run (hs : Sound cfg s) (calls : List (Call cfg)) :
    Sound cfg (Machine.run (Incentives.step cfg) s calls) ∧
      Moves cfg s (Machine.run (Incentives.step cfg) s calls)
        (fun lp a => deposited cfg lp a s calls) (fun lp a => withdrawn cfg lp a s calls) := by
  induction calls generalizing s with
  | nil => exact ⟨hs, fun _ _ => rfl⟩
  | cons call calls ih =>
      obtain ⟨hstep, hmoves⟩ := hs.step call
      obtain ⟨hrun, hrest⟩ := ih hstep
      refine ⟨hrun, fun lp a => ?_⟩
      have hfirst := hmoves lp a
      have hthen := hrest lp a
      dsimp only at hthen
      simp only [Machine.run_cons, deposited, withdrawn]
      omega

/-- **After every run of calls the two pools agree, an account's shares of them are what it staked
less what it took back, and the liquidity shares kept for all accounts are the sum of theirs.** -/
theorem sound_of_run (hs : Genesis cfg s) (calls : List (Call cfg)) (lp : CurrencyId)
    (hlp : lp.isDexShareCurrencyId = true) :
    let last := Machine.run (step cfg) s calls
    (Function.support (cfg.rewards.share last.rewards (.DexIncentive lp))).Finite ∧
    (∀ a, cfg.rewards.share last.rewards (.DexIncentive lp) a
        = cfg.rewards.share last.rewards (.DexPremium lp) a ∧
      withdrawn cfg lp a s calls ≤ deposited cfg lp a s calls ∧
      cfg.rewards.share last.rewards (.DexIncentive lp) a
        = deposited cfg lp a s calls - withdrawn cfg lp a s calls) ∧
      last.ledger.free lp cfg.accountId
        = ∑ᶠ a, cfg.rewards.share last.rewards (.DexIncentive lp) a := by
  intro last
  obtain ⟨hlast, hmoves⟩ := hs.sound.run calls
  refine ⟨hlast.finite lp, fun a => ⟨(hlast.agree lp a).symm, ?_⟩, hlast.backed lp hlp⟩
  have hmove := hmoves lp a
  dsimp only at hmove
  rw [hs.share, Nat.zero_add] at hmove
  constructor
  · omega
  · exact Nat.eq_sub_of_add_eq hmove

/-! ## Two holders -/

/-- Pools in which no reward has accumulated yet, so that none is paid. -/
structure SamplePools where
  share : PoolId → ℕ → ℕ
  totalShares : List (PoolId × ℕ)

def sampleRewards : Rewards ℕ SamplePools where
  share e := e.share
  pools e := e.totalShares
  addShare who pool n e :=
    { share := fun pool' a =>
        if pool' = pool ∧ a = who then Balance.saturatingAdd (e.share pool' a) n
        else e.share pool' a
      totalShares := (pool, (e.totalShares.lookup pool).getD 0 + n)
        :: e.totalShares.filter fun entry => entry.1 ≠ pool }
  removeShare who pool n e :=
    (0, { share := fun pool' a =>
            if pool' = pool ∧ a = who then e.share pool' a - n else e.share pool' a
          totalShares := (pool, (e.totalShares.lookup pool).getD 0 - min n (e.share pool who))
            :: e.totalShares.filter fun entry => entry.1 ≠ pool })
  claimRewards _ _ e := (0, e)
  accumulate _ _ e := e
  share_addShare _ _ _ _ _ _ := rfl
  share_removeShare _ _ _ _ _ _ := rfl
  share_claimRewards _ _ _ := rfl
  share_accumulate _ _ _ := rfl

def sampleConfig : Config ℕ SamplePools where
  rules := Ledger.Rules.permissive
  rewards := sampleRewards
  dexIncentivePool := 10
  dexPremiumPool := 11
  stableCurrencyIds := [.Token .USDJ, .Token .EURJ]
  incentiveCurrencyId := .Token .DNAR
  premiumCurrencyId := .Token .DRAM
  accountId := 12
  dexIncentivePool_ne := by decide
  dexPremiumPool_ne := by decide

def sampleShare : CurrencyId := .DexShare (.Token .DNAR) (.Token .USDJ)

/-- Accounts 1 and 2 hold 100 liquidity shares each. -/
def sampleState : State ℕ SamplePools where
  ledger :=
    { free := fun c a => if c = sampleShare ∧ (a = 1 ∨ a = 2) then 100 else 0
      issuance := fun c => if c = sampleShare then 200 else 0
      free_le := fun c a => by split <;> decide
      issuance_le := fun c => by split <;> decide }
  rewards := { share := fun _ _ => 0, totalShares := [] }
  dexIncentiveRewards := ∅
  dexPremiumRewards := ∅
  accumulatePeriod := 10

theorem sampleState_genesis : Genesis sampleConfig sampleState where
  share _ _ := rfl
  free c _ := by
    have haccount : ¬ (c = sampleShare ∧ (12 = 1 ∨ 12 = 2)) := by simp
    exact if_neg haccount

/-- Both stake, the first takes some back; an attempt to take back too much fails. -/
def sampleCalls : List (Call sampleConfig) :=
  [.depositDexShare ⟨1, by decide⟩ sampleShare 60, .depositDexShare ⟨2, by decide⟩ sampleShare 30,
    .onInitialize 10, .withdrawDexShare ⟨2, by decide⟩ sampleShare 31,
    .withdrawDexShare ⟨1, by decide⟩ sampleShare 20,
    .claimRewards ⟨1, by decide⟩ (.DexPremium sampleShare)]

/-- The first holder has 40 of the 70 shares that are kept. -/
theorem sampleCalls_sound :
    let last := Machine.run (step sampleConfig) sampleState sampleCalls
    sampleRewards.share last.rewards (.DexPremium sampleShare) 1 = 60 - 20 ∧
      last.ledger.free sampleShare 12 = 70 ∧
      last.ledger.free sampleShare 12
        = ∑ᶠ a, sampleRewards.share last.rewards (.DexIncentive sampleShare) a := by
  intro last
  obtain ⟨-, hshares, hbacked⟩ := sound_of_run sampleState_genesis sampleCalls sampleShare rfl
  obtain ⟨hagree, -, hshare⟩ := hshares 1
  have hmoved : deposited sampleConfig sampleShare 1 sampleState sampleCalls = 60 ∧
      withdrawn sampleConfig sampleShare 1 sampleState sampleCalls = 20 := by decide +kernel
  rw [hmoved.1, hmoved.2] at hshare
  exact ⟨hagree.symm.trans hshare, by decide +kernel, hbacked⟩

end Setheum.Incentives
