import Setheum.Incentives.Stakes

/-!
# What an accumulation block issues

In a block that is due, one pass over the reward pools issues to each pool that has shares the
reward configured for it, and calls back with every reward that was issued.

* `Issues` — one pass over the pools: which pools are called back and which ledger is left.
* `accumulatePools_spec` — the code's loop is such a pass, and its totals are those of the pass.
* `accumulatesExactly_iff` — a block does what it should exactly if the period is not zero. The
  period is zero until it is set, and then every block divides by zero.
* `premiumReachable_never` — no premium can be configured: the setter takes only share currencies
  that are stable currencies, and the stable currencies are tokens.
* `dexPremiumRewards_run` — so the premiums are the same after every run of calls.
-/

set_option autoImplicit false

namespace Setheum.Incentives

open StorageMap

variable {A E : Type} [DecidableEq A]

section Pass

variable (cfg : Config A E)

/-- The reward that is configured for a pool. -/
def configuredReward (s : State A E) : PoolId → ℕ
  | .DexIncentive currencyId => get 0 s.dexIncentiveRewards currencyId
  | .DexPremium currencyId => get 0 s.dexPremiumRewards currencyId

def rewardCurrency : PoolId → CurrencyId
  | .DexIncentive _ => cfg.incentiveCurrencyId
  | .DexPremium _ => cfg.premiumCurrencyId

def vault : PoolId → A
  | .DexIncentive _ => cfg.dexIncentivePool
  | .DexPremium _ => cfg.dexPremiumPool

/-- Issue the configured reward of a pool to its vault. -/
def issueTo (s : State A E) (pool : PoolId) (l : Ledger CurrencyId A) :
    Except Ledger.Error (Ledger CurrencyId A) :=
  Ledger.deposit cfg.rules (rewardCurrency cfg pool) (vault cfg pool) (configuredReward s pool) l

/-- A pass over the pools that starts with the ledger `l`, makes the calls back `calls` and ends
with the ledger `l'`. The rewards are those that `s` configures. -/
inductive Issues (s : State A E) : Ledger CurrencyId A → List (PoolId × ℕ) →
    List (PoolId × ℕ) → Ledger CurrencyId A → Prop
  | nil (l : Ledger CurrencyId A) : Issues s l [] [] l
  /-- A pool without shares, or without a reward, is left out. -/
  | idle {l l' : Ledger CurrencyId A} {pool : PoolId} {shares : ℕ} {pools calls : List (PoolId × ℕ)}
      (hidle : shares = 0 ∨ configuredReward s pool = 0) (hrest : Issues s l pools calls l') :
      Issues s l ((pool, shares) :: pools) calls l'
  /-- A pool whose reward cannot be issued is left out too. -/
  | refused {l l' : Ledger CurrencyId A} {pool : PoolId} {shares : ℕ}
      {pools calls : List (PoolId × ℕ)} {e : Ledger.Error} (hshares : shares ≠ 0)
      (hreward : configuredReward s pool ≠ 0) (hissue : issueTo cfg s pool l = .error e)
      (hrest : Issues s l pools calls l') : Issues s l ((pool, shares) :: pools) calls l'
  | issued {l l₁ l' : Ledger CurrencyId A} {pool : PoolId} {shares : ℕ}
      {pools calls : List (PoolId × ℕ)} (hshares : shares ≠ 0)
      (hreward : configuredReward s pool ≠ 0) (hissue : issueTo cfg s pool l = .ok l₁)
      (hrest : Issues s l₁ pools calls l') :
      Issues s l ((pool, shares) :: pools) ((pool, configuredReward s pool) :: calls) l'

/-- What the calls back of the pools that `p` selects add up to. -/
def calledBack (p : PoolId → Prop) [DecidablePred p] (calls : List (PoolId × ℕ)) : ℕ :=
  ((calls.filter fun call => p call.1).map Prod.snd).sum

/-- What the returned totals of a currency add up to. -/
def returned (currencyId : CurrencyId) (totals : List (CurrencyId × ℕ)) : ℕ :=
  ((totals.filter fun total => total.1 = currencyId).map Prod.snd).sum

/-- The reward pools after the calls back. -/
def accumulated (e : E) (calls : List (PoolId × ℕ)) : E :=
  calls.foldl (fun e call => cfg.rewards.accumulate call.1 call.2 e) e

/-- The block ends. If it is due, it makes one pass over the pools, else none; and of every
currency as much is issued as is called back and as is returned. -/
def AccumulatesExactly (s : State A E) (now : ℕ) : Prop :=
  ∃ totals s' calls, (accumulateReward cfg now).run s = .ok totals s' ∧
    Issues cfg s s.ledger
      (if s.accumulatePeriod ≠ 0 ∧ now % s.accumulatePeriod = 0
        then cfg.rewards.pools s.rewards else []) calls s'.ledger ∧
    s' = { s with ledger := s'.ledger, rewards := accumulated cfg s.rewards calls } ∧
    ∀ c,
      s'.ledger.issuance c
        = s.ledger.issuance c + calledBack (fun pool => rewardCurrency cfg pool = c) calls ∧
      returned c totals = calledBack (fun pool => rewardCurrency cfg pool = c) calls

end Pass

variable {cfg : Config A E} {s : State A E} {l l₁ l' : Ledger CurrencyId A}

/-! ## Passes over the pools -/

theorem Issues.append {pools pools' calls calls' : List (PoolId × ℕ)}
    (h : Issues cfg s l pools calls l₁) (h' : Issues cfg s l₁ pools' calls' l') :
    Issues cfg s l (pools ++ pools') (calls ++ calls') l' := by
  induction h with
  | nil l => exact h'
  | idle hidle _ ih => exact .idle hidle (ih h')
  | refused hshares hreward hissue _ ih => exact .refused hshares hreward hissue (ih h')
  | issued hshares hreward hissue _ ih => exact .issued hshares hreward hissue (ih h')

@[simp] theorem calledBack_nil (p : PoolId → Prop) [DecidablePred p] : calledBack p [] = 0 := rfl

theorem calledBack_cons (p : PoolId → Prop) [DecidablePred p] (call : PoolId × ℕ)
    (calls : List (PoolId × ℕ)) :
    calledBack p (call :: calls) = (if p call.1 then call.2 else 0) + calledBack p calls := by
  unfold calledBack
  by_cases hp : p call.1
  · simp [hp]
  · simp [hp]

theorem calledBack_append (p : PoolId → Prop) [DecidablePred p]
    (calls calls' : List (PoolId × ℕ)) :
    calledBack p (calls ++ calls') = calledBack p calls + calledBack p calls' := by
  simp [calledBack]

/-- As much is issued of a currency as is called back. -/
theorem Issues.issuance {pools calls : List (PoolId × ℕ)} (h : Issues cfg s l pools calls l')
    (c : CurrencyId) :
    l'.issuance c
      = l.issuance c + calledBack (fun pool => rewardCurrency cfg pool = c) calls := by
  induction h with
  | nil l => simp
  | idle _ _ ih => exact ih
  | refused _ _ _ _ ih => exact ih
  | @issued l l₁ l' pool shares pools calls _ _ hissue _ ih =>
      rw [ih, Ledger.deposit_issuance hissue c, calledBack_cons]
      simp only [eq_comm (a := c)]
      omega

/-- A pool that has shares and a reward is called back with it, unless it cannot be issued. -/
theorem Issues.mem {pools calls : List (PoolId × ℕ)} (h : Issues cfg s l pools calls l')
    {pool : PoolId} {shares : ℕ} (hpool : (pool, shares) ∈ pools) (hshares : shares ≠ 0)
    (hreward : configuredReward s pool ≠ 0) :
    (pool, configuredReward s pool) ∈ calls ∨ ∃ l₁ e, issueTo cfg s pool l₁ = .error e := by
  induction h with
  | nil l => cases hpool
  | idle hidle _ ih =>
      rcases List.mem_cons.mp hpool with heq | hpool
      · cases heq
        rcases hidle with h | h
        · exact absurd h hshares
        · exact absurd h hreward
      · exact ih hpool
  | refused _ _ hissue _ ih =>
      rcases List.mem_cons.mp hpool with heq | hpool
      · cases heq
        exact .inr ⟨_, _, hissue⟩
      · exact ih hpool
  | issued _ _ _ _ ih =>
      rcases List.mem_cons.mp hpool with heq | hpool
      · cases heq
        exact .inl List.mem_cons_self
      · exact (ih hpool).imp_left (List.mem_cons_of_mem _)

/-! ## The loop -/

theorem issueReward_zero {pool : PoolId} {c : CurrencyId} {v : A} :
    (issueReward cfg pool c v 0).run s = .ok 0 s := rfl

theorem issueReward_of_error {pool : PoolId} {c : CurrencyId} {v : A} {n : ℕ} {e : Ledger.Error}
    (h : Ledger.deposit cfg.rules c v n s.ledger = .error e) :
    (issueReward cfg pool c v n).run s = .ok 0 s := by
  unfold issueReward
  split
  · rfl
  · refine Dispatch.run_bind_ok.mpr ⟨.error (.currency e), s, ?_, rfl⟩
    exact Dispatch.run_attempt_ok.mpr
      (.inr ⟨_, Dispatch.run_onComponent_error.mpr ⟨⟨e, h, rfl⟩, rfl⟩, rfl⟩)

theorem issueReward_of_ok {pool : PoolId} {c : CurrencyId} {v : A} {n : ℕ} (hn : n ≠ 0)
    (h : Ledger.deposit cfg.rules c v n s.ledger = .ok l) :
    (issueReward cfg pool c v n).run s
      = .ok n { s with ledger := l, rewards := cfg.rewards.accumulate pool n s.rewards } := by
  unfold issueReward
  rw [if_neg hn]
  refine Dispatch.run_bind_ok.mpr ⟨.ok (), { s with ledger := l }, ?_, rfl⟩
  exact Dispatch.run_attempt_ok.mpr
    (.inl ⟨(), Dispatch.run_onComponent_ok.mpr ⟨l, h, rfl⟩, rfl⟩)

def PoolId.isIncentive : PoolId → Bool
  | .DexIncentive _ => true
  | .DexPremium _ => false

/-- The totals of the two kinds of pools after some calls back. -/
def totals (total : ℕ × ℕ) (calls : List (PoolId × ℕ)) : ℕ × ℕ :=
  (total.1 + calledBack (fun pool => pool.isIncentive = true) calls,
    total.2 + calledBack (fun pool => pool.isIncentive = false) calls)

/-- What the loop has added up is part of what there is of each currency, so that the totals do not
saturate. -/
def Covered (cfg : Config A E) (l : Ledger CurrencyId A) (total : ℕ × ℕ) : Prop :=
  total.1 ≤ l.issuance cfg.incentiveCurrencyId ∧ total.2 ≤ l.issuance cfg.premiumCurrencyId

theorem calledBack_mono {p q : PoolId → Prop} [DecidablePred p] [DecidablePred q]
    (hpq : ∀ pool, p pool → q pool) (calls : List (PoolId × ℕ)) :
    calledBack p calls ≤ calledBack q calls := by
  induction calls with
  | nil => simp
  | cons call calls ih =>
      rw [calledBack_cons, calledBack_cons]
      have hq := hpq call.1
      split
      · rename_i hp
        rw [if_pos (hq hp)]
        omega
      · omega

theorem Covered.issues {total : ℕ × ℕ} {pools calls : List (PoolId × ℕ)}
    (h : Covered cfg l total) (hissues : Issues cfg s l pools calls l') :
    Covered cfg l' (totals total calls) := by
  have hincentive := calledBack_mono (p := fun pool => pool.isIncentive = true)
    (q := fun pool => rewardCurrency cfg pool = cfg.incentiveCurrencyId)
    (fun pool hpool => by cases pool <;> simp_all [PoolId.isIncentive, rewardCurrency]) calls
  have hpremium := calledBack_mono (p := fun pool => pool.isIncentive = false)
    (q := fun pool => rewardCurrency cfg pool = cfg.premiumCurrencyId)
    (fun pool hpool => by cases pool <;> simp_all [PoolId.isIncentive, rewardCurrency]) calls
  rw [Covered, hissues.issuance, hissues.issuance]
  exact ⟨Nat.add_le_add h.1 hincentive, Nat.add_le_add h.2 hpremium⟩

/-- The part of the loop that is the same for both kinds of pools. -/
theorem issueReward_spec (s : State A E) (l : Ledger CurrencyId A) (e : E) (pool : PoolId)
    {shares : ℕ} (hshares : shares ≠ 0) :
    ∃ reward l' calls,
      (issueReward cfg pool (rewardCurrency cfg pool) (vault cfg pool)
          (configuredReward s pool)).run { s with ledger := l, rewards := e }
        = .ok reward { s with ledger := l', rewards := accumulated cfg e calls } ∧
      Issues cfg s l [(pool, shares)] calls l' ∧
      ∀ (p : PoolId → Prop) [DecidablePred p],
        calledBack p calls = if p pool then reward else 0 := by
  by_cases hreward : configuredReward s pool = 0
  · refine ⟨0, l, [], ?_, .idle (.inr hreward) (.nil l), fun p _ => by simp⟩
    rw [hreward]
    exact issueReward_zero
  · cases hissue : issueTo cfg s pool l with
    | error e' =>
        refine ⟨0, l, [], ?_, .refused hshares hreward hissue (.nil l), fun p _ => by simp⟩
        exact issueReward_of_error hissue
    | ok l' =>
        refine ⟨configuredReward s pool, l', [(pool, configuredReward s pool)], ?_,
          .issued hshares hreward hissue (.nil l'), fun p _ => by simp [calledBack_cons]⟩
        exact issueReward_of_ok hreward hissue

/-- One turn of the loop is the pass over one pool. -/
theorem accumulatePool_spec (s : State A E) (e : E) {total : ℕ × ℕ} (hcovered : Covered cfg l total)
    (pool : PoolId × ℕ) :
    ∃ l' calls,
      (accumulatePool cfg total pool).run { s with ledger := l, rewards := e }
        = .ok (totals total calls) { s with ledger := l', rewards := accumulated cfg e calls } ∧
      Issues cfg s l [pool] calls l' := by
  obtain ⟨pool, shares⟩ := pool
  by_cases hshares : shares = 0
  · refine ⟨l, [], ?_, .idle (.inl hshares) (.nil l)⟩
    rw [accumulatePool, if_pos hshares]
    rfl
  · obtain ⟨reward, l', calls, hrun, hissues, hcalls⟩ := issueReward_spec s l e pool hshares
    obtain ⟨hincentive, hpremium⟩ := hcovered.issues hissues
    refine ⟨l', calls, ?_, hissues⟩
    rw [accumulatePool, if_neg hshares, Dispatch.run_get_bind]
    simp only [totals, hcalls] at hincentive hpremium ⊢
    cases pool with
    | DexIncentive c =>
        refine Dispatch.run_bind_ok.mpr ⟨reward, _, hrun, ?_⟩
        have hsum : Balance.saturatingAdd total.1 reward = total.1 + reward :=
          Balance.saturatingAdd_eq (hincentive.trans (l'.issuance_le _))
        rw [hsum]
        rfl
    | DexPremium c =>
        refine Dispatch.run_bind_ok.mpr ⟨reward, _, hrun, ?_⟩
        have hsum : Balance.saturatingAdd total.2 reward = total.2 + reward :=
          Balance.saturatingAdd_eq (hpremium.trans (l'.issuance_le _))
        rw [hsum]
        rfl

theorem accumulated_append (e : E) (calls calls' : List (PoolId × ℕ)) :
    accumulated cfg e (calls ++ calls') = accumulated cfg (accumulated cfg e calls) calls' :=
  List.foldl_append

theorem totals_append (total : ℕ × ℕ) (calls calls' : List (PoolId × ℕ)) :
    totals total (calls ++ calls') = totals (totals total calls) calls' := by
  simp only [totals, calledBack_append, Nat.add_assoc]

/-- **The loop is one pass over the pools.** -/
theorem accumulatePools_spec (s : State A E) (pools : List (PoolId × ℕ)) (e : E) {total : ℕ × ℕ}
    (hcovered : Covered cfg l total) :
    ∃ l' calls,
      (accumulatePools cfg pools total).run { s with ledger := l, rewards := e }
        = .ok (totals total calls) { s with ledger := l', rewards := accumulated cfg e calls } ∧
      Issues cfg s l pools calls l' := by
  induction pools generalizing l e total with
  | nil => exact ⟨l, [], rfl, .nil l⟩
  | cons pool pools ih =>
      obtain ⟨l₁, calls, hrun, hissues⟩ := accumulatePool_spec s e hcovered pool
      obtain ⟨l', calls', hrun', hissues'⟩ := ih (accumulated cfg e calls)
        (hcovered.issues hissues)
      refine ⟨l', calls ++ calls', ?_, hissues.append hissues'⟩
      rw [totals_append, accumulated_append]
      exact Dispatch.run_bind_ok.mpr ⟨_, _, hrun, hrun'⟩

/-- The totals that are returned are what was called back, in each currency. -/
theorem returned_totals (c : CurrencyId) (calls : List (PoolId × ℕ)) {total : ℕ × ℕ}
    (htotal : total = totals (0, 0) calls) :
    returned c ((if total.1 = 0 then [] else [(cfg.incentiveCurrencyId, total.1)])
        ++ if total.2 = 0 then [] else [(cfg.premiumCurrencyId, total.2)])
      = calledBack (fun pool => rewardCurrency cfg pool = c) calls := by
  have hreturned : returned c ((if total.1 = 0 then [] else [(cfg.incentiveCurrencyId, total.1)])
      ++ if total.2 = 0 then [] else [(cfg.premiumCurrencyId, total.2)])
      = (if cfg.incentiveCurrencyId = c then total.1 else 0)
        + if cfg.premiumCurrencyId = c then total.2 else 0 := by
    unfold returned
    rw [List.filter_append, List.map_append, List.sum_append]
    congr 1
    · split <;> simp_all [List.filter_cons]
      split <;> simp
    · split <;> simp_all [List.filter_cons]
      split <;> simp
  rw [hreturned, htotal]
  clear hreturned htotal
  induction calls with
  | nil => simp [totals]
  | cons call calls ih =>
      simp only [totals, calledBack_cons, Nat.zero_add] at ih ⊢
      obtain ⟨pool, n⟩ := call
      cases pool with
      | DexIncentive c' =>
          have hkind : (PoolId.DexIncentive c').isIncentive = true := rfl
          have hcurrency : rewardCurrency cfg (.DexIncentive c') = cfg.incentiveCurrencyId := rfl
          simp only [hkind, hcurrency, ← ih, if_true, Bool.true_eq_false, if_false]
          grind
      | DexPremium c' =>
          have hkind : (PoolId.DexPremium c').isIncentive = false := rfl
          have hcurrency : rewardCurrency cfg (.DexPremium c') = cfg.premiumCurrencyId := rfl
          simp only [hkind, hcurrency, ← ih, if_true, Bool.false_eq_true, if_false]
          grind

/-- **A block does what it should exactly if the accumulation period is not zero**, for every state
and block number. -/
theorem accumulatesExactly_iff (cfg : Config A E) (s : State A E) (now : ℕ) :
    AccumulatesExactly cfg s now ↔ s.accumulatePeriod ≠ 0 := by
  constructor
  · rintro ⟨out, s', calls, hrun, -⟩
    rw [accumulateReward, Dispatch.run_get_bind] at hrun
    obtain ⟨_, _, hperiod, -⟩ := Dispatch.run_bind_ok.mp hrun
    exact (Dispatch.run_ensure_ok.mp hperiod).1
  · intro hperiod
    unfold AccumulatesExactly
    by_cases hdue : now % s.accumulatePeriod = 0
    · have hcovered : Covered cfg s.ledger (0, 0) := ⟨Nat.zero_le _, Nat.zero_le _⟩
      obtain ⟨l', calls, hrun, hissues⟩ :=
        accumulatePools_spec s (cfg.rewards.pools s.rewards) s.rewards hcovered
      refine ⟨_, { s with ledger := l', rewards := accumulated cfg s.rewards calls }, calls, ?_, ?_,
        rfl, fun c => ⟨hissues.issuance c, returned_totals c calls rfl⟩⟩
      · rw [accumulateReward, Dispatch.run_get_bind]
        refine Dispatch.run_bind_ok.mpr ⟨(), s, Dispatch.run_ensure_ok.mpr ⟨hperiod, rfl⟩, ?_⟩
        rw [if_pos hdue]
        exact Dispatch.run_bind_ok.mpr ⟨_, _, hrun, rfl⟩
      · rw [if_pos ⟨hperiod, hdue⟩]
        exact hissues
    · refine ⟨[], s, [], ?_, ?_, rfl, fun c => ⟨by simp, by simp [returned]⟩⟩
      · rw [accumulateReward, Dispatch.run_get_bind]
        refine Dispatch.run_bind_ok.mpr ⟨(), s, Dispatch.run_ensure_ok.mpr ⟨hperiod, rfl⟩, ?_⟩
        rw [if_neg hdue]
        rfl
      · rw [if_neg fun h => hdue h.2]
        exact .nil s.ledger

/-- Until the period is set it is zero, and the first block divides by it. -/
theorem accumulateReward_unset :
    let unset := { sampleState with accumulatePeriod := 0 }
    (accumulateReward sampleConfig 1).run unset = .error .divisionByZero unset ∧
      ¬ AccumulatesExactly sampleConfig unset 1 := by
  intro unset
  have hrun : (accumulateReward sampleConfig 1).run unset = .error .divisionByZero unset := rfl
  refine ⟨hrun, ?_⟩
  rintro ⟨out, s', calls, hok, -⟩
  rw [hrun] at hok
  cases hok

/-! ## Premiums -/

/-- Both currencies of a share currency are among the stable currencies. -/
def OfStableCurrencies (cfg : Config A E) (lpCurrencyId : CurrencyId) : Prop :=
  ∃ x y, lpCurrencyId = .DexShare (.Token x) (.Token y) ∧
    .Token x ∈ cfg.stableCurrencyIds ∧ .Token y ∈ cfg.stableCurrencyIds

/-- The premium of a share currency can be set to the amount, and whenever it is set to it and a
block is due, the block issues it to the pool if that has shares and the vault takes it. -/
def PremiumReachable (cfg : Config A E) (s : State A E) (lpCurrencyId : CurrencyId)
    (amount : ℕ) : Prop :=
  let set := step cfg s (.updateDexPremiumRewards [(lpCurrencyId, amount)])
  Dispatch.succeeds (Call.call cfg (.updateDexPremiumRewards [(lpCurrencyId, amount)])) s = true ∧
    get 0 set.dexPremiumRewards lpCurrencyId = amount ∧
    ∀ (calls : List (Call cfg)) (now shares : ℕ),
      let t := Machine.run (step cfg) set calls
      get 0 t.dexPremiumRewards lpCurrencyId = amount → amount ≠ 0 →
      t.accumulatePeriod ≠ 0 → now % t.accumulatePeriod = 0 →
      (.DexPremium lpCurrencyId, shares) ∈ cfg.rewards.pools t.rewards → shares ≠ 0 →
      ∃ totals t' issued, (accumulateReward cfg now).run t = .ok totals t' ∧
        Issues cfg t t.ledger (cfg.rewards.pools t.rewards) issued t'.ledger ∧
        ((.DexPremium lpCurrencyId, amount) ∈ issued ∨
          ∃ l e, issueTo cfg t (.DexPremium lpCurrencyId) l = .error e)

variable (cfg) in
/-- A block that is due is one pass over the pools. -/
theorem accumulateReward_due {now : ℕ} (hperiod : s.accumulatePeriod ≠ 0)
    (hdue : now % s.accumulatePeriod = 0) :
    ∃ totals l' calls,
      (accumulateReward cfg now).run s
        = .ok totals { s with ledger := l', rewards := accumulated cfg s.rewards calls } ∧
      Issues cfg s s.ledger (cfg.rewards.pools s.rewards) calls l' := by
  have hcovered : Covered cfg s.ledger (0, 0) := ⟨Nat.zero_le _, Nat.zero_le _⟩
  obtain ⟨l', calls, hrun, hissues⟩ :=
    accumulatePools_spec s (cfg.rewards.pools s.rewards) s.rewards hcovered
  rw [accumulateReward, Dispatch.run_get_bind, if_pos hdue]
  exact ⟨_, l', calls, Dispatch.run_bind_ok.mpr ⟨(), s, Dispatch.run_ensure_ok.mpr ⟨hperiod, rfl⟩,
    Dispatch.run_bind_ok.mpr ⟨_, _, hrun, rfl⟩⟩, hissues⟩

/-- Whatever premium is set is issued in every block that is due. -/
theorem premium_issued {lp : CurrencyId} {now shares : ℕ}
    (hpremium : get 0 s.dexPremiumRewards lp ≠ 0) (hperiod : s.accumulatePeriod ≠ 0)
    (hdue : now % s.accumulatePeriod = 0)
    (hpool : (.DexPremium lp, shares) ∈ cfg.rewards.pools s.rewards) (hshares : shares ≠ 0) :
    ∃ totals s' issued, (accumulateReward cfg now).run s = .ok totals s' ∧
      Issues cfg s s.ledger (cfg.rewards.pools s.rewards) issued s'.ledger ∧
      ((.DexPremium lp, get 0 s.dexPremiumRewards lp) ∈ issued ∨
        ∃ l e, issueTo cfg s (.DexPremium lp) l = .error e) := by
  obtain ⟨out, l', issued, hrun, hissues⟩ := accumulateReward_due cfg hperiod hdue
  exact ⟨out, _, issued, hrun, hissues, hissues.mem hpool hshares hpremium⟩

/-- What the setter accepts is a share currency and a stable currency. -/
theorem updateDexPremiumRewards_ok {updates : List (CurrencyId × ℕ)} {u : Unit} {s' : State A E}
    (h : (updateDexPremiumRewards cfg updates).run s = .ok u s') :
    ∀ update ∈ updates,
      update.1.isDexShareCurrencyId = true ∧ update.1 ∈ cfg.stableCurrencyIds := by
  induction updates generalizing s with
  | nil => exact fun _ hupdate => absurd hupdate List.not_mem_nil
  | cons update updates ih =>
      obtain ⟨_, s₁, hfirst, hrest⟩ := Dispatch.run_forM_cons_ok.mp h
      simp only [Dispatch.run_bind_ok, Dispatch.run_ensure_ok] at hfirst
      obtain ⟨-, -, ⟨hshare, rfl⟩, -, -, ⟨hstable, rfl⟩, -⟩ := hfirst
      intro update' hupdate'
      rcases List.mem_cons.mp hupdate' with rfl | hupdate'
      · exact ⟨hshare, hstable⟩
      · exact ih hrest update' hupdate'

/-- **No premium can be set.** With tokens for stable currencies the setter accepts no update. -/
theorem updateDexPremiumRewards_refuses
    (hstable : ∀ c ∈ cfg.stableCurrencyIds, c.isTokenCurrencyId = true)
    {updates : List (CurrencyId × ℕ)} {u : Unit} {s' : State A E}
    (h : (updateDexPremiumRewards cfg updates).run s = .ok u s') : updates = [] := by
  refine List.eq_nil_iff_forall_not_mem.mpr fun update hupdate => ?_
  obtain ⟨hshare, hmem⟩ := updateDexPremiumRewards_ok h update hupdate
  have htoken := hstable _ hmem
  generalize update.1 = c at hshare htoken
  cases c <;> simp [CurrencyId.isTokenCurrencyId, CurrencyId.isDexShareCurrencyId] at hshare htoken

/-- **For no state, share currency and amount is a premium reachable**, whether or not the share
currency is of two stable currencies; those that are not are refused as they should. -/
theorem premiumReachable_never
    (hstable : ∀ c ∈ cfg.stableCurrencyIds, c.isTokenCurrencyId = true) (s : State A E)
    (lp : CurrencyId) (amount : ℕ) :
    ¬ PremiumReachable cfg s lp amount ∧
      ∀ updates : List (CurrencyId × ℕ),
        Dispatch.succeeds (Call.call cfg (.updateDexPremiumRewards updates)) s = true →
        ∀ update ∈ updates, OfStableCurrencies cfg update.1 := by
  have hrefuses : ∀ updates : List (CurrencyId × ℕ),
      Dispatch.succeeds (Call.call cfg (.updateDexPremiumRewards updates)) s = true →
      updates = [] := by
    intro updates hsucceeds
    obtain ⟨u, s', hrun⟩ := Dispatch.exists_run_ok hsucceeds
    exact updateDexPremiumRewards_refuses hstable (Dispatch.run_transactional_ok.mp hrun)
  constructor
  · rintro ⟨hsucceeds, -⟩
    cases hrefuses _ hsucceeds
  · intro updates hsucceeds update hupdate
    rw [hrefuses updates hsucceeds] at hupdate
    cases hupdate

def twoStable : CurrencyId := .DexShare (.Token .USDJ) (.Token .EURJ)

theorem premiumReachable_twoStable :
    ¬ PremiumReachable sampleConfig sampleState twoStable 5 ∧
      ∀ updates : List (CurrencyId × ℕ),
        Dispatch.succeeds (Call.call sampleConfig (.updateDexPremiumRewards updates)) sampleState
          = true →
        ∀ update ∈ updates, OfStableCurrencies sampleConfig update.1 :=
  premiumReachable_never (by decide) sampleState twoStable 5

/-- The premium of 5 for the shares of two stable currencies is refused. -/
theorem updateDexPremiumRewards_twoStable :
    (Call.call sampleConfig (.updateDexPremiumRewards [(twoStable, 5)])).run sampleState
        = .error (.module .InvalidCurrencyId) sampleState ∧
      OfStableCurrencies sampleConfig twoStable ∧
      ¬ PremiumReachable sampleConfig sampleState twoStable 5 := by
  refine ⟨rfl, ⟨.USDJ, .EURJ, rfl, by decide, by decide⟩, ?_⟩
  rintro ⟨hsucceeds, -⟩
  cases hsucceeds

/-! ### The premiums of a run -/

section Premiums

variable {m : Map CurrencyId ℕ}

/-- The premiums are `m`. -/
def PremiumsAre (m : Map CurrencyId ℕ) (s : State A E) : Prop := s.dexPremiumRewards = m

omit [DecidableEq A] in
theorem premiums_onLedger
    (f : Ledger CurrencyId A → Except Ledger.Error (Ledger CurrencyId A)) :
    Dispatch.Preserves (PremiumsAre m) (onLedger (E := E) f) :=
  Dispatch.preserves_onComponent fun _ _ h => h

theorem premiums_payout {who : A} {pool : PoolId} {n : ℕ} :
    Dispatch.Preserves (PremiumsAre m) (payout cfg who pool n) := by
  cases pool <;> exact Dispatch.preserves_ignore (premiums_onLedger _)

theorem premiums_removeShare {who : A} {pool : PoolId} {n : ℕ} :
    Dispatch.Preserves (PremiumsAre m) (removeShare cfg who pool n) :=
  Dispatch.preserves_get_bind fun _ hs =>
    Dispatch.preserves_bind (Dispatch.preserves_set hs) fun _ => premiums_payout

theorem premiums_claimRewards {who : A} {pool : PoolId} :
    Dispatch.Preserves (PremiumsAre m) (claimRewards cfg who pool) :=
  Dispatch.preserves_get_bind fun _ hs =>
    Dispatch.preserves_bind (Dispatch.preserves_set hs) fun _ => premiums_payout

theorem premiums_doDepositDexShare {who : A} {lp : CurrencyId} {n : ℕ} :
    Dispatch.Preserves (PremiumsAre m) (doDepositDexShare cfg who lp n) := by
  refine Dispatch.preserves_bind Dispatch.preserves_ensure fun _ => ?_
  refine Dispatch.preserves_bind (premiums_onLedger _) fun _ => ?_
  exact Dispatch.preserves_bind (Dispatch.preserves_modify fun _ h => h) fun _ =>
    Dispatch.preserves_modify fun _ h => h

theorem premiums_doWithdrawDexShare {who : A} {lp : CurrencyId} {n : ℕ} :
    Dispatch.Preserves (PremiumsAre m) (doWithdrawDexShare cfg who lp n) := by
  refine Dispatch.preserves_bind Dispatch.preserves_ensure fun _ => ?_
  refine Dispatch.preserves_bind Dispatch.preserves_get fun s => ?_
  refine Dispatch.preserves_bind Dispatch.preserves_ensure fun _ => ?_
  refine Dispatch.preserves_bind (premiums_onLedger _) fun _ => ?_
  exact Dispatch.preserves_bind premiums_removeShare fun _ => premiums_removeShare

theorem premiums_foreign (f : Foreign cfg) :
    Dispatch.Preserves (PremiumsAre m) (foreign cfg f) :=
  Dispatch.preserves_onComponent fun _ _ h => h

theorem premiums_accumulateReward (now : ℕ) :
    Dispatch.Preserves (PremiumsAre m) (accumulateReward cfg now) := by
  intro s hs
  by_cases hperiod : s.accumulatePeriod = 0
  · have hfails : (accumulateReward cfg now).run s = .error .divisionByZero s :=
      Dispatch.run_bind_error.mpr (.inr ⟨s, s, rfl, Dispatch.run_bind_error.mpr
        (.inl (Dispatch.run_ensure_error.mpr ⟨fun h => h hperiod, rfl, rfl⟩))⟩)
    rw [Dispatch.commit_of_error hfails]
    exact hs
  · by_cases hdue : now % s.accumulatePeriod = 0
    · obtain ⟨totals, l', calls, hrun, -⟩ := accumulateReward_due cfg hperiod hdue
      rw [Dispatch.commit_of_ok hrun]
      exact hs
    · have hrun : (accumulateReward cfg now).run s = .ok [] s := by
        rw [accumulateReward, Dispatch.run_get_bind]
        refine Dispatch.run_bind_ok.mpr ⟨(), s, Dispatch.run_ensure_ok.mpr ⟨hperiod, rfl⟩, ?_⟩
        rw [if_neg hdue]
        rfl
      rw [Dispatch.commit_of_ok hrun]
      exact hs

theorem premiums_call (hstable : ∀ c ∈ cfg.stableCurrencyIds, c.isTokenCurrencyId = true)
    (call : Call cfg) : Dispatch.Preserves (PremiumsAre m) (call.call cfg) := by
  cases call with
  | depositDexShare who lp amount =>
      exact Dispatch.preserves_transactional premiums_doDepositDexShare
  | withdrawDexShare who lp amount =>
      exact Dispatch.preserves_transactional premiums_doWithdrawDexShare
  | claimRewards who pool =>
      exact Dispatch.preserves_transactional premiums_claimRewards
  | updateDexIncentiveRewards updates =>
      refine Dispatch.preserves_transactional (Dispatch.preserves_forM fun _ => ?_)
      exact Dispatch.preserves_bind Dispatch.preserves_ensure fun _ =>
        Dispatch.preserves_modify fun _ h => h
  | updateDexPremiumRewards updates =>
      refine fun s hs => Dispatch.commit_transactional_invariant hs fun u s' hrun => ?_
      cases updateDexPremiumRewards_refuses hstable hrun
      cases hrun
      exact hs
  | updateAccumulatePeriod blockNumber =>
      have hupdate : Dispatch.Preserves (PremiumsAre m)
          (updateAccumulatePeriod (A := A) (E := E) blockNumber) :=
        Dispatch.preserves_modify fun _ h => h
      exact Dispatch.preserves_transactional hupdate
  | onInitialize now =>
      exact Dispatch.preserves_bind (premiums_accumulateReward now) fun _ =>
        Dispatch.preserves_pure ()
  | addLiquidity who lp shareIncrement before =>
      exact Dispatch.preserves_transactional (Dispatch.preserves_bind (premiums_foreign before)
        fun _ => premiums_doDepositDexShare)
  | removeLiquidity who lp removeShare after =>
      exact Dispatch.preserves_transactional (Dispatch.preserves_bind premiums_doWithdrawDexShare
        fun _ => premiums_foreign after)
  | other f => exact Dispatch.preserves_transactional (premiums_foreign f)

/-- **No run of calls changes the premiums**: with tokens for stable currencies there are only
those that the chain starts with. -/
theorem dexPremiumRewards_run
    (hstable : ∀ c ∈ cfg.stableCurrencyIds, c.isTokenCurrencyId = true) (s : State A E)
    (calls : List (Call cfg)) :
    (Machine.run (step cfg) s calls).dexPremiumRewards = s.dexPremiumRewards :=
  Machine.run_invariant_always (P := PremiumsAre s.dexPremiumRewards)
    (fun s call hs => premiums_call hstable call s hs) rfl calls

end Premiums

end Setheum.Incentives
