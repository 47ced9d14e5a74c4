import Setheum.Dex.Paths

/-!
# The calls of the exchange

What each call of the exchange leaves when it goes through, said once. A call that fails leaves the
state as it was, since every extrinsic is a transaction; so these are all that the accounts of the
reserves, of the provisions and of the value of a share need to know of the calls.

* `doAddProvision_spec`, `doAddLiquidity_spec`, `doRemoveLiquidity_spec` — liquidity.
* `doSwapWithExactSupply_ok_iff`, `doSwapWithExactTarget_ok_iff`, `settleSwap_spec` — swaps.
* `listTradingPair_spec`, `enableTradingPair_spec`, `disableTradingPair_spec` — the status of a
  pair.
-/

set_option autoImplicit false

namespace Setheum.Dex

open StorageMap Dispatch

variable {A E : Type} [DecidableEq A] {cfg : Config A E} {s s' : State A E}

omit [DecidableEq A] in
/-- A call that begins with `ensureSigned` and succeeds has a signer. -/
theorem ensureSigned_ok {origin : Origin (Signer cfg)} {who : A}
    (h : (ensureSigned cfg origin : DexM A E A).run s = .ok who s') :
    ∃ signer, origin = .signed signer ∧ signer.1 = who ∧ s = s' := by
  cases origin with
  | root => cases run_throw_ok.mp h
  | signed signer => exact ⟨signer, rfl, run_pure_ok.mp h⟩

/-! ## Contributions -/

section Provisions

variable {who : A} {a b : CurrencyId} {x y : ℕ}

/-- What a successful contribution does. -/
theorem doAddProvision_spec {u : Unit}
    (hrun : (doAddProvision cfg who a b x y).run s = .ok u s') :
    ∃ params l₁ l₂ r, s.tradingPairStatus (TradingPair.new a b) = .Provisioning params ∧
      (params.minContribution.1 ≤ (inPairOrder (TradingPair.new a b) a x y).1 ∨
        params.minContribution.2 ≤ (inPairOrder (TradingPair.new a b) a x y).2) ∧
      Ledger.transfer cfg.rules (TradingPair.new a b).currency0 who cfg.accountId
        (inPairOrder (TradingPair.new a b) a x y).1 s.ledger = .ok l₁ ∧
      Ledger.transfer cfg.rules (TradingPair.new a b).currency1 who cfg.accountId
        (inPairOrder (TradingPair.new a b) a x y).2 l₁ = .ok l₂ ∧
      r = (if s.provisioningPool.lookup (TradingPair.new a b, who) = none then
        (s.system.incConsumers who).getD s.system else s.system) ∧
      s' = { s with
        ledger := l₂, system := r
        provisioningPool := s.provisioningPool.insert (TradingPair.new a b, who)
          (addPair (s.provision (TradingPair.new a b) who)
            (inPairOrder (TradingPair.new a b) a x y))
        tradingPairStatuses := s.tradingPairStatuses.insert (TradingPair.new a b)
          (.Provisioning (params.contribute (inPairOrder (TradingPair.new a b) a x y))) } := by
  simp only [doAddProvision, run_bind_ok, run_get_ok] at hrun
  obtain ⟨t, t', ⟨rfl, rfl⟩, hrun⟩ := hrun
  split at hrun
  · rename_i params hp
    simp only [run_bind_ok, run_ensure_ok, transfer, run_onComponent_ok, run_modify_ok,
      run_when_ok] at hrun
    obtain ⟨-, _, ⟨hmin, rfl⟩, -, _, ⟨l₁, h0, rfl⟩, -, _, ⟨l₂, h1, rfl⟩, -, _, rfl, -, _,
      href, rfl⟩ := hrun
    -- the first contribution of an account also takes a reference
    rcases href with ⟨hfirst, rfl⟩ | ⟨hfurther, rfl⟩
    · exact ⟨params, l₁, l₂, _, hp, hmin, h0, h1, (if_pos hfirst).symm, rfl⟩
    · exact ⟨params, l₁, l₂, _, hp, hmin, h0, h1, (if_neg hfurther).symm, rfl⟩
  · cases run_throw_ok.mp hrun

end Provisions

/-! ## Liquidity -/

section Liquidity

variable {who : A} {a b : CurrencyId}

omit [DecidableEq A] in
/-- A staking operation changes the ledger and its own storage. -/
theorem staking_module {f : Ledger CurrencyId A × E → Option (Ledger CurrencyId A × E)}
    {u : Unit} (h : (staking f : DexM A E Unit).run s = .ok u s') :
    ∃ w, f (s.ledger, s.external) = some w ∧
      { s with ledger := w.1, external := w.2 } = s' := by
  simp only [staking, run_onComponent_ok] at h
  obtain ⟨w, hw, hs⟩ := h
  cases hf : f (s.ledger, s.external) with
  | none =>
      rw [hf] at hw
      cases hw
  | some w' =>
      rw [hf] at hw
      cases hw
      exact ⟨w, rfl, hs⟩

/-- What an addition of liquidity does: both increments come in, the shares are minted and may be
staked, and the pool is raised. -/
theorem doAddLiquidity_spec {x y m : ℕ} {d : Bool} {u : Unit}
    (hrun : (doAddLiquidity cfg who a b x y m d).run s = .ok u s') :
    ∃ p lp increment l₁ l₂ l₃ w, p = TradingPair.new a b ∧ p.getDexShareCurrencyId = some lp ∧
      increment = liquidityIncrement (s.ledger.issuance lp) (s.pool p) (inPairOrder p a x y) ∧
      increment.2 ≠ 0 ∧
      Ledger.transfer cfg.rules p.currency0 who cfg.accountId increment.1.1 s.ledger = .ok l₁ ∧
      Ledger.transfer cfg.rules p.currency1 who cfg.accountId increment.1.2 l₁ = .ok l₂ ∧
      Ledger.deposit cfg.rules lp who increment.2 l₂ = .ok l₃ ∧
      (cfg.incentives.doDepositDexShare who lp increment.2 (l₃, s.external) = some w ∨
        w = (l₃, s.external)) ∧
      s' = { s with
        ledger := w.1, external := w.2,
        liquidityPool := s.liquidityPool.insert p (addPair (s.pool p) increment.1) } := by
  simp only [doAddLiquidity, run_bind_ok, run_okOr_ok, run_get_ok, run_ensure_ok, transfer,
    deposit, run_onComponent_ok, run_modify_ok, run_when_ok] at hrun
  obtain ⟨lp, _, ⟨hlp, rfl⟩, t, t', ⟨rfl, rfl⟩, -, _, ⟨-, rfl⟩, -, _, ⟨⟨hshare, -⟩, rfl⟩, -, _,
    ⟨-, rfl⟩, -, _, ⟨l₁, h0, rfl⟩, -, _, ⟨l₂, h1, rfl⟩, -, _, ⟨l₃, h2, rfl⟩, _, _, hstake, rfl⟩ :=
    hrun
  rcases hstake with ⟨-, hstake⟩ | ⟨-, rfl⟩
  · obtain ⟨w, hw, rfl⟩ := staking_module hstake
    exact ⟨_, lp, _, l₁, l₂, l₃, w, rfl, hlp, rfl, hshare, h0, h1, h2, .inl hw, rfl⟩
  · exact ⟨_, lp, _, l₁, l₂, l₃, _, rfl, hlp, rfl, hshare, h0, h1, h2, .inr rfl, rfl⟩

/-- What a removal of liquidity does: the shares may be unstaked and are burnt, and both decrements
are paid out of the pool. -/
theorem doRemoveLiquidity_spec {n x y : ℕ} {byWithdraw : Bool} {u : Unit}
    (hrun : (doRemoveLiquidity cfg who a b n x y byWithdraw).run s = .ok u s') :
    s' = s ∨ ∃ p lp decrement w l₁ l₂ l₃, TradingPair.fromTokenCurrencyIds a b = some p ∧
      p.getDexShareCurrencyId = some lp ∧
      decrement = liquidityDecrement n (s.ledger.issuance lp) (s.pool p) ∧
      (cfg.incentives.doWithdrawDexShare who lp n (s.ledger, s.external) = some w ∨
        w = (s.ledger, s.external)) ∧
      Ledger.withdraw cfg.rules lp who n w.1 = .ok l₁ ∧
      Ledger.transfer cfg.rules p.currency0 cfg.accountId who decrement.1 l₁ = .ok l₂ ∧
      Ledger.transfer cfg.rules p.currency1 cfg.accountId who decrement.2 l₂ = .ok l₃ ∧
      s' = { s with
        ledger := l₃, external := w.2,
        liquidityPool := s.liquidityPool.insert p
          ((s.pool p).1 - decrement.1, (s.pool p).2 - decrement.2) } := by
  unfold doRemoveLiquidity at hrun
  split at hrun
  · obtain ⟨-, rfl⟩ := run_pure_ok.mp hrun
    exact .inl rfl
  simp only [run_bind_ok, run_okOr_ok, run_get_ok, run_ensure_ok, transfer, withdraw,
    run_onComponent_ok, run_modify_ok, run_when_ok] at hrun
  obtain ⟨p, _, ⟨hp, rfl⟩, lp, _, ⟨hlp, rfl⟩, t, t', ⟨rfl, rfl⟩, -, _, ⟨-, rfl⟩, _, _, hstake,
    -, _, ⟨l₁, hburn, rfl⟩, -, _, ⟨l₂, h0, rfl⟩, -, _, ⟨l₃, h1, rfl⟩, rfl⟩ := hrun
  right
  rcases hstake with ⟨-, hstake⟩ | ⟨-, rfl⟩
  · obtain ⟨w, hw, rfl⟩ := staking_module hstake
    exact ⟨p, lp, _, w, l₁, l₂, l₃, hp, hlp, rfl, .inl hw, hburn, h0, h1, rfl⟩
  · exact ⟨p, lp, _, _, l₁, l₂, l₃, hp, hlp, rfl, .inr rfl, hburn, h0, h1, rfl⟩

end Liquidity

/-! ## Swaps -/

section Swaps

variable {who : A} {path : List CurrencyId} {amounts : List ℕ} {n m : ℕ}

theorem settleSwap_spec {u : Unit} (hrun : (settleSwap cfg who path amounts n m).run s = .ok u s') :
    ∃ c c' l₁ l₂ pools, pathEnds path = some (c, c') ∧
      Ledger.transfer cfg.rules c who cfg.accountId n s.ledger = .ok l₁ ∧
      Ledger.transfer cfg.rules c' cfg.accountId who m l₁ = .ok l₂ ∧
      swapByPath path amounts { s with ledger := l₁ }
        = { s with ledger := l₁, liquidityPool := pools } ∧
      s' = { s with ledger := l₂, liquidityPool := pools } := by
  simp only [settleSwap, run_bind_ok, run_okOr_ok, transfer, run_onComponent_ok,
    run_modify_ok] at hrun
  obtain ⟨⟨c, c'⟩, _, ⟨hends, rfl⟩, -, _, ⟨l₁, hin, rfl⟩, -, _, rfl, l₂, hout, rfl⟩ := hrun
  obtain ⟨pools, hpools⟩ := swapByPath_eq path amounts { s with ledger := l₁ }
  rw [hpools] at hout ⊢
  exact ⟨c, c', l₁, l₂, pools, hends, hin, hout, hpools, rfl⟩

theorem mapError_ok {α ε ε' : Type} {f : ε → ε'} {r : Except ε α} {a : α} :
    r.mapError f = .ok a ↔ r = .ok a := by
  cases r <;> simp [Except.mapError]

/-- An exact-supply swap goes through if it is quoted, meets its minimum and settles. -/
theorem doSwapWithExactSupply_ok_iff {limit : Option ℕ} {y : ℕ} :
    (doSwapWithExactSupply cfg who path n m limit).run s = .ok y s' ↔
      ∃ amounts, getTargetAmounts cfg.tradingPathLimit s path n limit = .ok amounts ∧
        y = amounts.getLastD 0 ∧ m ≤ y ∧
          (settleSwap cfg who path amounts n y).run s = .ok () s' := by
  simp only [doSwapWithExactSupply, run_transactional_ok, run_bind_ok, run_get_ok,
    run_ofExcept_ok, mapError_ok, run_ensure_ok, run_pure_ok]
  constructor
  · rintro ⟨t, t', ⟨rfl, rfl⟩, amounts, _, ⟨hquote, rfl⟩, -, _, ⟨hmin, rfl⟩, _, _, hsettle, rfl,
      rfl⟩
    exact ⟨amounts, hquote, rfl, hmin, hsettle⟩
  · rintro ⟨amounts, hquote, rfl, hmin, hsettle⟩
    exact ⟨s, s, ⟨rfl, rfl⟩, amounts, s, ⟨hquote, rfl⟩, (), s, ⟨hmin, rfl⟩, (), s', hsettle, rfl,
      rfl⟩

/-- So does an exact-target swap, with a maximum for what it charges. -/
theorem doSwapWithExactTarget_ok_iff {limit : Option ℕ} {x : ℕ} :
    (doSwapWithExactTarget cfg who path n m limit).run s = .ok x s' ↔
      ∃ amounts, getSupplyAmounts cfg.tradingPathLimit s path n limit = .ok amounts ∧
        x = amounts.headD 0 ∧ x ≤ m ∧ (settleSwap cfg who path amounts x n).run s = .ok () s' := by
  simp only [doSwapWithExactTarget, run_transactional_ok, run_bind_ok, run_get_ok,
    run_ofExcept_ok, mapError_ok, run_ensure_ok, run_pure_ok]
  constructor
  · rintro ⟨t, t', ⟨rfl, rfl⟩, amounts, _, ⟨hquote, rfl⟩, -, _, ⟨hmax, rfl⟩, _, _, hsettle, rfl,
      rfl⟩
    exact ⟨amounts, hquote, rfl, hmax, hsettle⟩
  · rintro ⟨amounts, hquote, rfl, hmax, hsettle⟩
    exact ⟨s, s, ⟨rfl, rfl⟩, amounts, s, ⟨hquote, rfl⟩, (), s, ⟨hmax, rfl⟩, (), s', hsettle, rfl,
      rfl⟩

end Swaps

/-! ## The extrinsics -/

section Extrinsics

variable {origin : Origin (Signer cfg)} {a b : CurrencyId} {path : List CurrencyId}
  {n m x y : ℕ} {u : Unit}

theorem swapWithExactSupply_spec
    (hrun : (swapWithExactSupply cfg origin path n m).run s = .ok u s') :
    ∃ who, origin = .signed who ∧
      ∃ r, (doSwapWithExactSupply cfg who.1 path n m none).run s = .ok r s' := by
  simp only [swapWithExactSupply, run_transactional_ok, run_bind_ok, run_pure_ok] at hrun
  obtain ⟨_, _, hsigned, r, _, hswap, -, rfl⟩ := hrun
  obtain ⟨who, rfl, rfl, rfl⟩ := ensureSigned_ok hsigned
  exact ⟨who, rfl, r, hswap⟩

theorem swapWithExactTarget_spec
    (hrun : (swapWithExactTarget cfg origin path n m).run s = .ok u s') :
    ∃ who, origin = .signed who ∧
      ∃ r, (doSwapWithExactTarget cfg who.1 path n m none).run s = .ok r s' := by
  simp only [swapWithExactTarget, run_transactional_ok, run_bind_ok, run_pure_ok] at hrun
  obtain ⟨_, _, hsigned, r, _, hswap, -, rfl⟩ := hrun
  obtain ⟨who, rfl, rfl, rfl⟩ := ensureSigned_ok hsigned
  exact ⟨who, rfl, r, hswap⟩

/-- Liquidity goes to the pool of an enabled pair and to the provision of a pending one, which may
be enabled by it. -/
theorem addLiquidity_spec {d : Bool}
    (hrun : (addLiquidity cfg origin a b x y m d).run s = .ok u s') :
    ∃ who, origin = .signed who ∧
      ((doAddLiquidity cfg who.1 a b x y m d).run s = .ok () s' ∨
        ∃ params t, s.tradingPairStatus (TradingPair.new a b) = .Provisioning params ∧
          (doAddProvision cfg who.1 a b x y).run s = .ok () t ∧
          s' = convertToEnabledIfPossible cfg (TradingPair.new a b) t) := by
  simp only [addLiquidity, run_transactional_ok, run_bind_ok, run_okOr_ok, run_get_ok] at hrun
  obtain ⟨_, _, hsigned, p, _, ⟨hp, rfl⟩, t, t', ⟨rfl, rfl⟩, hrun⟩ := hrun
  obtain ⟨who, rfl, rfl, rfl⟩ := ensureSigned_ok hsigned
  obtain rfl : TradingPair.new a b = p := TradingPair.fromTokenCurrencyIds_eq_new hp
  refine ⟨who, rfl, ?_⟩
  split at hrun
  · exact .inl hrun
  · rename_i params hst
    simp only [run_bind_ok, run_modify_ok] at hrun
    obtain ⟨_, t, hadd, rfl⟩ := hrun
    exact .inr ⟨params, t, hst, hadd, rfl⟩
  · cases run_throw_ok.mp hrun

theorem removeLiquidity_spec {byWithdraw : Bool}
    (hrun : (removeLiquidity cfg origin a b n x y byWithdraw).run s = .ok u s') :
    ∃ who, origin = .signed who ∧
      (doRemoveLiquidity cfg who.1 a b n x y byWithdraw).run s = .ok () s' := by
  simp only [removeLiquidity, run_transactional_ok, run_bind_ok] at hrun
  obtain ⟨_, _, hsigned, hremove⟩ := hrun
  obtain ⟨who, rfl, rfl, rfl⟩ := ensureSigned_ok hsigned
  exact ⟨who, rfl, hremove⟩

omit [DecidableEq A] in
theorem setErc20Mapping_spec {c : CurrencyId} {u : Unit}
    (hrun : (setErc20Mapping cfg c).run s = .ok u s') : ∃ e, { s with external := e } = s' := by
  unfold setErc20Mapping at hrun
  split at hrun
  · rw [run_onComponent_ok] at hrun
    obtain ⟨e, -, rfl⟩ := hrun
    exact ⟨e, rfl⟩
  · obtain ⟨-, rfl⟩ := run_pure_ok.mp hrun
    exact ⟨s.external, rfl⟩

omit [DecidableEq A] in
/-- A listed pair begins to collect its provision. -/
theorem listTradingPair_spec {mA mB tA tB : ℕ}
    (hrun : (listTradingPair cfg origin a b mA mB tA tB n).run s = .ok u s') :
    ∃ p params e, TradingPair.fromTokenCurrencyIds a b = some p ∧
      s.tradingPairStatus p = .NotEnabled ∧ params.accumulatedProvision = (0, 0) ∧
      s' = { s with
        external := e,
        tradingPairStatuses := s.tradingPairStatuses.insert p (.Provisioning params) } := by
  simp only [listTradingPair, run_transactional_ok, run_bind_ok, run_okOr_ok, run_get_ok,
    run_ensure_ok, run_modify_ok] at hrun
  obtain ⟨-, _, ⟨-, rfl⟩, -, _, ⟨-, rfl⟩, p, _, ⟨hp, rfl⟩, _, _, ⟨-, rfl⟩, t, t', ⟨rfl, rfl⟩,
    -, _, ⟨hst, rfl⟩, -, _, ⟨-, rfl⟩, _, _, hmapA, _, _, hmapB, rfl⟩ := hrun
  obtain ⟨e, rfl⟩ := setErc20Mapping_spec hmapA
  obtain ⟨e', rfl⟩ := setErc20Mapping_spec hmapB
  exact ⟨p, _, e', hp, hst, rfl, rfl⟩

omit [DecidableEq A] in
theorem enableTradingPair_spec (hrun : (enableTradingPair cfg origin a b).run s = .ok u s') :
    ∃ p, TradingPair.fromTokenCurrencyIds a b = some p ∧ s.tradingPairStatus p = .NotEnabled ∧
      s' = { s with tradingPairStatuses := s.tradingPairStatuses.insert p .Enabled } := by
  simp only [enableTradingPair, run_transactional_ok, run_bind_ok, run_okOr_ok, run_get_ok,
    run_ensure_ok, run_modify_ok] at hrun
  obtain ⟨-, _, ⟨-, rfl⟩, p, _, ⟨hp, rfl⟩, t, t', ⟨rfl, rfl⟩, -, _, ⟨hst, rfl⟩, rfl⟩ := hrun
  exact ⟨p, hp, hst, rfl⟩

theorem refundProvision_spec {p : TradingPair} {entry : A × (ℕ × ℕ)} {v : PUnit}
    (hrun : (refundProvision cfg p entry).run s = .ok v s') :
    ∃ l₁ l₂,
      Ledger.transfer cfg.rules p.currency0 cfg.accountId entry.1 entry.2.1 s.ledger = .ok l₁ ∧
      Ledger.transfer cfg.rules p.currency1 cfg.accountId entry.1 entry.2.2 l₁ = .ok l₂ ∧
      s' = { s with ledger := l₂, system := s.system.decConsumers entry.1 } := by
  simp only [refundProvision, run_bind_ok, transfer, run_onComponent_ok, run_modify_ok] at hrun
  obtain ⟨-, _, ⟨l₁, h0, rfl⟩, -, _, ⟨l₂, h1, rfl⟩, rfl⟩ := hrun
  exact ⟨l₁, l₂, h0, h1, rfl⟩

/-- A disabled pair that was pending pays its contributors back and forgets their entries. -/
theorem disableTradingPair_spec (hrun : (disableTradingPair cfg origin a b).run s = .ok u s') :
    ∃ p, TradingPair.fromTokenCurrencyIds a b = some p ∧
      ((s.tradingPairStatus p = .Enabled ∧
          s' = { s with tradingPairStatuses := s.tradingPairStatuses.insert p .NotEnabled }) ∨
        ∃ params t, s.tradingPairStatus p = .Provisioning params ∧
          ((s.provisionsOf p).forM (refundProvision cfg p)).run s = .ok () t ∧
          s' = { t with
            provisioningPool := t.drained p,
            tradingPairStatuses := t.tradingPairStatuses.erase p }) := by
  simp only [disableTradingPair, run_transactional_ok, run_bind_ok, run_okOr_ok, run_get_ok,
    run_ensure_ok] at hrun
  obtain ⟨-, _, ⟨-, rfl⟩, p, _, ⟨hp, rfl⟩, t, t', ⟨rfl, rfl⟩, hrun⟩ := hrun
  refine ⟨p, hp, ?_⟩
  split at hrun
  · rename_i hst
    exact .inl ⟨hst, (run_modify_ok.mp hrun).symm⟩
  · rename_i params hst
    simp only [run_bind_ok, run_modify_ok] at hrun
    obtain ⟨_, t, hloop, rfl⟩ := hrun
    exact .inr ⟨params, t, hst, hloop, rfl⟩
  · cases run_throw_ok.mp hrun

omit [DecidableEq A] in
theorem updateExchangeFee_spec (hrun : (updateExchangeFee cfg origin n m).run s = .ok u s') :
    s' = { s with exchangeFee := (n, m) } := by
  simp only [updateExchangeFee, run_transactional_ok, run_bind_ok, run_ensure_ok,
    run_modify_ok] at hrun
  obtain ⟨-, _, ⟨-, rfl⟩, rfl⟩ := hrun
  rfl

end Extrinsics

end Setheum.Dex
