import Setheum.Dex.Calls

/-!
# Exact reserve accounting of the exchange

Every call of the exchange keeps its module account equal to the pools and pending provisions it
owes, with two exceptions that the code makes itself: enabling a provisioned pair subtracts the
second side of the provision from the pool instead of adding it, and a path that drains one pool
twice can take more from it than is there. `MeetsReserves` is the condition, on a call and the
state before it, that neither happens.

* `step_accounted` — a call that meets the condition keeps the account exact.
* `reserves_exact_of_run` — so does every run of such calls from the genesis state.
-/

set_option autoImplicit false

namespace Setheum.Dex

open StorageMap Dispatch

variable {A E : Type} [DecidableEq A] {cfg : Config A E} {s s' : State A E}

/-! ## Moving both sides of a pair -/

section Sides

variable {p : TradingPair} {x : ℕ × ℕ} {who : A} {l l₁ l₂ : Ledger CurrencyId A}

/-- Two transfers into the module account bring in both amounts. -/
theorem collect_free (hwho : who ≠ cfg.accountId)
    (h0 : Ledger.transfer cfg.rules p.currency0 who cfg.accountId x.1 l = .ok l₁)
    (h1 : Ledger.transfer cfg.rules p.currency1 who cfg.accountId x.2 l₁ = .ok l₂)
    (c : CurrencyId) : l₂.free c cfg.accountId = l.free c cfg.accountId + side c p x := by
  have hf0 := Ledger.transfer_free h0 c cfg.accountId
  have hf1 := Ledger.transfer_free h1 c cfg.accountId
  simp only [hwho.symm, and_false, and_true, if_false] at hf0 hf1
  unfold side
  omega

/-- Two transfers out of the module account pay out both amounts. -/
theorem pay_free (hwho : who ≠ cfg.accountId)
    (h0 : Ledger.transfer cfg.rules p.currency0 cfg.accountId who x.1 l = .ok l₁)
    (h1 : Ledger.transfer cfg.rules p.currency1 cfg.accountId who x.2 l₁ = .ok l₂)
    (c : CurrencyId) : l₂.free c cfg.accountId + side c p x = l.free c cfg.accountId := by
  have hf0 := Ledger.transfer_free h0 c cfg.accountId
  have hf1 := Ledger.transfer_free h1 c cfg.accountId
  simp only [hwho.symm, and_false, and_true, if_false] at hf0 hf1
  unfold side
  omega

/-- Minting to another account leaves the module account alone. -/
theorem deposit_module {c : CurrencyId} {n : ℕ} (hwho : who ≠ cfg.accountId)
    (h : Ledger.deposit cfg.rules c who n l = .ok l₁) (d : CurrencyId) :
    l₁.free d cfg.accountId = l.free d cfg.accountId := by
  have hf := Ledger.deposit_free h d cfg.accountId
  simpa [hwho.symm] using hf

/-- So does burning from another account. -/
theorem withdraw_module {c : CurrencyId} {n : ℕ} (hwho : who ≠ cfg.accountId)
    (h : Ledger.withdraw cfg.rules c who n l = .ok l₁) (d : CurrencyId) :
    l₁.free d cfg.accountId = l.free d cfg.accountId := by
  have hf := Ledger.withdraw_free h d cfg.accountId
  simpa [hwho.symm] using hf

end Sides

/-! ## Liquidity -/

section Liquidity

variable {who : A} {a b : CurrencyId}

theorem doAddLiquidity_accounted (h : Accounted cfg s) (hwho : who ≠ cfg.accountId)
    {x y m : ℕ} {d : Bool} {u : Unit}
    (hrun : (doAddLiquidity cfg who a b x y m d).run s = .ok u s') : Accounted cfg s' := by
  obtain ⟨p, lp, increment, l₁, l₂, l₃, w, -, -, -, -, h0, h1, h2, hstake, rfl⟩ :=
    doAddLiquidity_spec hrun
  have hcollect := collect_free hwho h0 h1
  have hmint := deposit_module hwho h2
  have hpool : addPair (s.pool p) increment.1 = s.pool p + increment.1 :=
    addPair_eq_of_received (fun c => (Nat.le_add_right _ _).trans (h.pool_le p c)) hcollect
  rw [hpool]
  have hfree : ∀ c, l₃.free c cfg.accountId + side c p (s.pool p)
      = s.ledger.free c cfg.accountId + side c p (s.pool p + increment.1) := by
    intro c
    rw [hmint c, hcollect c, side_add]
    omega
  rcases hstake with hw | rfl
  · refine h.insert_pool fun c => ?_
    rw [cfg.incentives.deposit_free hwho hw c]
    exact hfree c
  · exact h.insert_pool hfree

/-- The part that some of the shares stand for is no more than the pool. -/
theorem liquidityDecrement_le {n t : ℕ} {pool : ℕ × ℕ} (hn : n ≤ t)
    (h0 : pool.1 ≤ Balance.maxValue) (h1 : pool.2 ≤ Balance.maxValue) :
    (liquidityDecrement n t pool).1 ≤ pool.1 ∧ (liquidityDecrement n t pool).2 ≤ pool.2 := by
  have hratio : (FixedU128.checkedFromRational n t).getD 0 ≤ FixedU128.accuracy := by
    cases hr : FixedU128.checkedFromRational n t with
    | none => exact Nat.zero_le _
    | some r => exact FixedU128.checkedFromRational_le hn hr
  exact ⟨FixedU128.saturatingMulInt_le hratio h0, FixedU128.saturatingMulInt_le hratio h1⟩

theorem side_sub_add {p : TradingPair} {x y : ℕ × ℕ} (h : y.1 ≤ x.1 ∧ y.2 ≤ x.2)
    (c : CurrencyId) : side c p (x.1 - y.1, x.2 - y.2) + side c p y = side c p x := by
  obtain ⟨h0, h1⟩ := h
  unfold side
  split <;> split <;> omega

theorem doRemoveLiquidity_accounted (h : Accounted cfg s) (hwho : who ≠ cfg.accountId)
    {n x y : ℕ} {byWithdraw : Bool} {u : Unit}
    (hrun : (doRemoveLiquidity cfg who a b n x y byWithdraw).run s = .ok u s') :
    Accounted cfg s' := by
  obtain rfl | ⟨p, lp, decrement, w, l₁, l₂, l₃, -, -, hdecrement, hstake, hburn, h0, h1, rfl⟩ :=
    doRemoveLiquidity_spec hrun
  · exact h
  -- unstaking changes neither the module account nor the issuance of the shares
  obtain ⟨hmodule, hissuance⟩ :
      (∀ c, w.1.free c cfg.accountId = s.ledger.free c cfg.accountId) ∧
        w.1.issuance lp = s.ledger.issuance lp := by
    rcases hstake with hw | rfl
    · exact ⟨cfg.incentives.withdraw_free hwho hw, cfg.incentives.withdraw_issuance hw⟩
    · exact ⟨fun _ => rfl, rfl⟩
  have hshares : n ≤ s.ledger.issuance lp := by
    have hsub := Ledger.withdraw_issuance hburn lp
    simp only [if_true] at hsub
    omega
  have hpay := pay_free hwho h0 h1
  have hcover : decrement.1 ≤ (s.pool p).1 ∧ decrement.2 ≤ (s.pool p).2 := by
    rw [hdecrement]
    refine liquidityDecrement_le hshares ?_ ?_
    · have hle := h.pool_le p p.currency0
      have hmax := s.ledger.free_le p.currency0 cfg.accountId
      have hfst := fst_le_side p (s.pool p)
      omega
    · have hle := h.pool_le p p.currency1
      have hmax := s.ledger.free_le p.currency1 cfg.accountId
      have hsnd := snd_le_side p (s.pool p)
      omega
  have hfree : ∀ c, l₃.free c cfg.accountId + side c p (s.pool p) = s.ledger.free c cfg.accountId
      + side c p ((s.pool p).1 - decrement.1, (s.pool p).2 - decrement.2) := by
    intro c
    have hsides := side_sub_add (p := p) hcover c
    have hpaid : l₃.free c cfg.accountId + side c p decrement = l₁.free c cfg.accountId := hpay c
    rw [withdraw_module hwho hburn c, hmodule c] at hpaid
    omega
  exact h.insert_pool hfree

end Liquidity

/-! ## Swaps -/

section Swaps

variable {who : A} {path : List CurrencyId} {amounts : List ℕ} {n m : ℕ}

omit [DecidableEq A] in
theorem swap_liquidityPool_congr {t t' : State A E} (h : t.liquidityPool = t'.liquidityPool)
    (c c' : CurrencyId) (n m : ℕ) :
    (swap c c' n m t).liquidityPool = (swap c c' n m t').liquidityPool := by
  unfold swap State.pool
  rw [h]
  split
  · exact h
  · rfl

omit [DecidableEq A] in
/-- Whether the hops are covered is a matter of the pools alone. -/
theorem HopsCovered.congr {t t' : State A E} (h : t.liquidityPool = t'.liquidityPool)
    (hcov : HopsCovered t path amounts) : HopsCovered t' path amounts := by
  induction path generalizing t t' amounts with
  | nil => simp [HopsCovered]
  | cons c path ih =>
      rcases path with _ | ⟨c', path⟩
      · simp [HopsCovered]
      · rcases amounts with _ | ⟨n, _ | ⟨n', amounts⟩⟩
        · simp [HopsCovered]
        · simp [HopsCovered]
        · obtain ⟨hhop, hrest⟩ := hcov
          refine ⟨?_, ih (swap_liquidityPool_congr h c c' n n') hrest⟩
          unfold getLiquidity State.pool at hhop ⊢
          rw [← h]
          exact hhop

/-- The two transfers of a swap go through. -/
def Settles (cfg : Config A E) (s : State A E) (who : A) (path : List CurrencyId)
    (supplyAmount targetAmount : ℕ) : Prop :=
  ∃ c c' l₁ l₂, pathEnds path = some (c, c') ∧
    Ledger.transfer cfg.rules c who cfg.accountId supplyAmount s.ledger = .ok l₁ ∧
    Ledger.transfer cfg.rules c' cfg.accountId who targetAmount l₁ = .ok l₂

/-- **A settled swap whose hops are covered keeps the account exact.** -/
theorem settleSwap_accounted (h : Accounted cfg s) (hwho : who ≠ cfg.accountId)
    (hq : Quote s path amounts) (hn : amounts.head? = some n) (hm : amounts.getLast? = some m)
    (hcov : HopsCovered s path amounts) {u : Unit}
    (hrun : (settleSwap cfg who path amounts n m).run s = .ok u s') : Accounted cfg s' := by
  obtain ⟨c, c', l₁, l₂, pools, hends, hin, hout, hpools, rfl⟩ := settleSwap_spec hrun
  obtain ⟨hc, hc'⟩ : path.head? = some c ∧ path.getLast? = some c' := by
    unfold pathEnds at hends
    split at hends
    · rename_i d d' hd hd'
      cases hends
      exact ⟨hd, hd'⟩
    · cases hends
  have hstart : InFlight cfg { s with ledger := l₁ } c n := by
    intro d
    have hfree := Ledger.transfer_free hin d cfg.accountId
    simp only [hwho.symm, and_false, and_true, if_false, add_zero] at hfree
    have hb := h.backed d
    simp only [poolTotal, provisionTotal] at hb ⊢
    omega
  have hvalid : ∀ p, s.tradingPairStatus p = .Enabled → p.Valid :=
    fun p hp => h.valid p (by simp [hp])
  have hcov' : HopsCovered { s with ledger := l₁ } path amounts :=
    hcov.congr (rfl : s.liquidityPool = _)
  have hend := hstart.swapByPath hvalid hc hn hq.length_eq hq.enabled hcov' hc' hm
  rw [hpools] at hend
  refine ⟨fun d => ?_, h.valid, h.accumulated, h.unprovisioned, h.contributor⟩
  have hfree := Ledger.transfer_free hout d cfg.accountId
  simp only [hwho.symm, and_false, and_true, if_false, add_zero] at hfree
  have hd := hend d
  simp only [poolTotal, provisionTotal] at hd ⊢
  omega

/-- The exact-supply swap goes through and a hop of it takes more than its pool holds by then. -/
def OverdrawsSupply (cfg : Config A E) (s : State A E) (who : A) (path : List CurrencyId)
    (supplyAmount minTargetAmount : ℕ) : Prop :=
  ∃ amounts, getTargetAmounts cfg.tradingPathLimit s path supplyAmount none = .ok amounts ∧
    minTargetAmount ≤ amounts.getLastD 0 ∧
    Settles cfg s who path supplyAmount (amounts.getLastD 0) ∧ ¬ HopsCovered s path amounts

/-- The exact-target swap goes through and a hop of it takes more than its pool holds by then. -/
def OverdrawsTarget (cfg : Config A E) (s : State A E) (who : A) (path : List CurrencyId)
    (targetAmount maxSupplyAmount : ℕ) : Prop :=
  ∃ amounts, getSupplyAmounts cfg.tradingPathLimit s path targetAmount none = .ok amounts ∧
    amounts.headD 0 ≤ maxSupplyAmount ∧
    Settles cfg s who path (amounts.headD 0) targetAmount ∧ ¬ HopsCovered s path amounts

theorem doSwapWithExactSupply_accounted (h : Accounted cfg s) (hwho : who ≠ cfg.accountId)
    (hok : ¬ OverdrawsSupply cfg s who path n m) {r : ℕ}
    (hrun : (doSwapWithExactSupply cfg who path n m none).run s = .ok r s') :
    Accounted cfg s' := by
  obtain ⟨amounts, hquote, rfl, hmin, hsettle⟩ := doSwapWithExactSupply_ok_iff.mp hrun
  obtain ⟨hq, hhead⟩ := getTargetAmounts_spec hquote
  have hlast : amounts.getLast? = some (amounts.getLastD 0) := by
    cases amounts with
    | nil => cases hhead
    | cons k ks => simp [List.getLast?_cons]
  refine settleSwap_accounted h hwho hq hhead hlast ?_ hsettle
  obtain ⟨c, c', l₁, l₂, -, hends, hin, hout, -, -⟩ := settleSwap_spec hsettle
  by_contra hcov
  exact hok ⟨amounts, hquote, hmin, ⟨c, c', l₁, l₂, hends, hin, hout⟩, hcov⟩

theorem doSwapWithExactTarget_accounted (h : Accounted cfg s) (hwho : who ≠ cfg.accountId)
    (hok : ¬ OverdrawsTarget cfg s who path n m) {r : ℕ}
    (hrun : (doSwapWithExactTarget cfg who path n m none).run s = .ok r s') :
    Accounted cfg s' := by
  obtain ⟨amounts, hquote, rfl, hmax, hsettle⟩ := doSwapWithExactTarget_ok_iff.mp hrun
  obtain ⟨hq, hlast⟩ := getSupplyAmounts_spec hquote
  have hhead : amounts.head? = some (amounts.headD 0) := by
    cases amounts with
    | nil => cases hlast
    | cons k ks => rfl
  refine settleSwap_accounted h hwho hq hhead hlast ?_ hsettle
  obtain ⟨c, c', l₁, l₂, -, hends, hin, hout, -, -⟩ := settleSwap_spec hsettle
  by_contra hcov
  exact hok ⟨amounts, hquote, hmax, ⟨c, c', l₁, l₂, hends, hin, hout⟩, hcov⟩

end Swaps

/-! ## Listing, enabling and disabling -/

section Listing

variable {origin : Origin (Signer cfg)} {a b : CurrencyId}

theorem listTradingPair_accounted (h : Accounted cfg s) {mA mB tA tB n : ℕ} :
    Accounted cfg ((listTradingPair cfg origin a b mA mB tA tB n).commit s) := by
  refine commit_transactional_invariant h ?_
  intro u s' hrun
  obtain ⟨p, params, e, hp, hst, hzero, rfl⟩ :=
    listTradingPair_spec (run_transactional_ok.mpr hrun)
  refine h.set_status (TradingPair.valid_of_fromTokenCurrencyIds hp) ?_ ?_
  · intro who
    exact h.unprovisioned p who fun params hprov => by simp [hst] at hprov
  · rintro params' hparams
    cases hparams
    exact hzero

theorem enableTradingPair_accounted (h : Accounted cfg s) :
    Accounted cfg ((enableTradingPair cfg origin a b).commit s) := by
  refine commit_transactional_invariant h ?_
  intro u s' hrun
  obtain ⟨p, hp, hst, rfl⟩ := enableTradingPair_spec (run_transactional_ok.mpr hrun)
  refine h.set_status (TradingPair.valid_of_fromTokenCurrencyIds hp) ?_ ?_
  · intro who
    exact h.unprovisioned p who fun params hprov => by simp [hst] at hprov
  · rintro params hparams
    cases hparams

/-- Paying a list of contributors back takes their contributions off the module account. -/
theorem refundProvision_forM {p : TradingPair} {entries : List (A × (ℕ × ℕ))}
    (hne : ∀ e ∈ entries, e.1 ≠ cfg.accountId) {u : PUnit}
    (hrun : (entries.forM (refundProvision cfg p)).run s = .ok u s') :
    ∃ l r, s' = { s with ledger := l, system := r } ∧
      ∀ c, l.free c cfg.accountId + (entries.map fun e => side c p e.2).sum
        = s.ledger.free c cfg.accountId := by
  induction entries generalizing s with
  | nil =>
      obtain rfl := run_forM_nil_ok.mp hrun
      exact ⟨s.ledger, s.system, rfl, fun c => by simp⟩
  | cons e entries ih =>
      obtain ⟨v, s₁, he, hrest⟩ := run_forM_cons_ok.mp hrun
      obtain ⟨l₁, l₂, h0, h1, rfl⟩ := refundProvision_spec he
      have hpaid := pay_free (hne e List.mem_cons_self) h0 h1
      obtain ⟨l, r, rfl, hl⟩ := ih (fun e' he' => hne e' (List.mem_cons_of_mem e he')) hrest
      refine ⟨l, r, rfl, fun c => ?_⟩
      have hrest' : l.free c cfg.accountId + (entries.map fun e => side c p e.2).sum
          = l₂.free c cfg.accountId := hl c
      have hfirst : l₂.free c cfg.accountId + side c p e.2 = s.ledger.free c cfg.accountId :=
        hpaid c
      rw [List.map_cons, List.sum_cons]
      omega

theorem disableTradingPair_accounted (h : Accounted cfg s) :
    Accounted cfg ((disableTradingPair cfg origin a b).commit s) := by
  refine commit_transactional_invariant h ?_
  intro u s' hrun
  obtain ⟨p, hp, ⟨hst, rfl⟩ | ⟨params, t, hst, hloop, rfl⟩⟩ :=
    disableTradingPair_spec (run_transactional_ok.mpr hrun)
  · -- an enabled pair
    refine h.set_status (TradingPair.valid_of_fromTokenCurrencyIds hp) ?_ ?_
    · intro who
      exact h.unprovisioned p who fun params hprov => by simp [hst] at hprov
    · rintro params hparams
      cases hparams
  · -- a pending pair
    obtain ⟨l, r, rfl, hfree⟩ :=
      refundProvision_forM (fun e he => h.contributor_ne (p := p) he) hloop
    refine h.refund fun c => ?_
    rw [← sum_provisionsOf]
    exact hfree c

end Listing

/-! ## Contributions that do not enable their pair -/

/-- The contribution goes through and brings its pending pair to its target, so that the pair is
enabled. -/
def Enables (cfg : Config A E) (s : State A E) (who : A) (a b : CurrencyId) (x y : ℕ) : Prop :=
  ∃ params l₁ l₂, s.tradingPairStatus (TradingPair.new a b) = .Provisioning params ∧
    (params.minContribution.1 ≤ (inPairOrder (TradingPair.new a b) a x y).1 ∨
      params.minContribution.2 ≤ (inPairOrder (TradingPair.new a b) a x y).2) ∧
    Ledger.transfer cfg.rules (TradingPair.new a b).currency0 who cfg.accountId
      (inPairOrder (TradingPair.new a b) a x y).1 s.ledger = .ok l₁ ∧
    Ledger.transfer cfg.rules (TradingPair.new a b).currency1 who cfg.accountId
      (inPairOrder (TradingPair.new a b) a x y).2 l₁ = .ok l₂ ∧
    canBeEnabled s.blockNumber (params.contribute (inPairOrder (TradingPair.new a b) a x y)) = true

theorem addLiquidity_accounted (h : Accounted cfg s) {origin : Origin (Signer cfg)}
    {a b : CurrencyId} {x y m : ℕ} {d : Bool}
    (hok : ∀ who, origin = .signed who → ¬ Enables cfg s who.1 a b x y) :
    Accounted cfg ((addLiquidity cfg origin a b x y m d).commit s) := by
  refine commit_transactional_invariant h ?_
  intro u s' hrun
  obtain ⟨who, rfl, hadd | ⟨-, t, -, hadd, rfl⟩⟩ :=
    addLiquidity_spec (run_transactional_ok.mpr hrun)
  · exact doAddLiquidity_accounted h who.2 hadd
  · obtain ⟨params, l₁, l₂, r, hst, hmin, h0, h1, -, rfl⟩ := doAddProvision_spec hadd
    have hacc := h.contribute (r := r) who.2 hst (collect_free who.2 h0 h1)
    -- the pair stays pending, so nothing is converted
    unfold convertToEnabledIfPossible
    split
    · rename_i params' lp hst' hlp
      rw [if_neg]
      · exact hacc
      · intro hcan
        rw [State.tradingPairStatus, get_insert] at hst'
        cases hst'
        exact hok who rfl ⟨params, l₁, l₂, hst, hmin, h0, h1, hcan⟩
    · exact hacc

/-! ## Runs -/

/-- The call does not reach either of the two places where the code loses track of reserves: it
does not enable a provisioned pair, and no hop of a swap takes more than its pool holds. -/
def MeetsReserves (cfg : Config A E) (s : State A E) : Call cfg → Prop
  | .addLiquidity (.signed who) a b x y _ _ => ¬ Enables cfg s who.1 a b x y
  | .swapWithExactSupply (.signed who) path n m => ¬ OverdrawsSupply cfg s who.1 path n m
  | .swapWithExactTarget (.signed who) path n m => ¬ OverdrawsTarget cfg s who.1 path n m
  | _ => True

/-- **Every call that meets the condition keeps the account exact.** -/
theorem step_accounted (s : State A E) (call : Call cfg) (h : Accounted cfg s)
    (hok : MeetsReserves cfg s call) : Accounted cfg (step cfg s call) := by
  cases call with
  | swapWithExactSupply origin path n m =>
      refine commit_transactional_invariant h ?_
      intro u s' hrun
      obtain ⟨who, rfl, r, hswap⟩ := swapWithExactSupply_spec (run_transactional_ok.mpr hrun)
      exact doSwapWithExactSupply_accounted h who.2 hok hswap
  | swapWithExactTarget origin path n m =>
      refine commit_transactional_invariant h ?_
      intro u s' hrun
      obtain ⟨who, rfl, r, hswap⟩ := swapWithExactTarget_spec (run_transactional_ok.mpr hrun)
      exact doSwapWithExactTarget_accounted h who.2 hok hswap
  | addLiquidity origin a b x y m d =>
      refine addLiquidity_accounted h ?_
      rintro who rfl
      exact hok
  | removeLiquidity origin a b n x y w =>
      refine commit_transactional_invariant h ?_
      intro u s' hrun
      obtain ⟨who, rfl, hremove⟩ := removeLiquidity_spec (run_transactional_ok.mpr hrun)
      exact doRemoveLiquidity_accounted h who.2 hremove
  | listTradingPair origin a b mA mB tA tB n => exact listTradingPair_accounted h
  | enableTradingPair origin a b => exact enableTradingPair_accounted h
  | disableTradingPair origin a b => exact disableTradingPair_accounted h
  | updateExchangeFee origin n d =>
      refine commit_transactional_invariant h ?_
      intro u s' hrun
      obtain rfl := updateExchangeFee_spec (run_transactional_ok.mpr hrun)
      exact h.outside fun _ => rfl
  | outside o => exact h.outside (o.module_free s)

/-- **Exact reserve accounting.** In every run from the genesis state whose calls all meet the
condition, the exchange's account holds, in every currency, exactly the pools' and the pending
provisions' sides in that currency. -/
theorem reserves_exact_of_run (cfg : Config A E) (s : State A E) (hs : Genesis cfg s)
    (calls : List (Call cfg)) (h : Machine.StepsMeet (step cfg) (MeetsReserves cfg) s calls)
    (c : CurrencyId) :
    (Machine.run (step cfg) s calls).ledger.free c cfg.accountId
      = poolTotal (Machine.run (step cfg) s calls) c
        + provisionTotal (Machine.run (step cfg) s calls) c :=
  (Machine.run_invariant step_accounted hs.accounted h).backed c

/-! ## The condition on a small exchange -/

/-- Account 0 is the module, root lists pairs, swaps cost a hundredth. -/
def sampleConfig : Config ℕ Unit where
  rules := Ledger.Rules.permissive
  accountId := 0
  tradingPathLimit := 3
  mapping := ⟨fun _ e => some e⟩
  incentives := DEXIncentives.unit ℕ Unit 0
  updateOrigin
    | .root => true
    | .signed _ => false
  listingOrigin
    | .root => true
    | .signed _ => false

/-- Account 1 holds a thousand of every currency. -/
def sampleState : State ℕ Unit where
  ledger :=
    { free := fun _ a => if a = 1 then 1000 else 0
      issuance := fun _ => 0
      free_le := fun _ a => by split <;> decide
      issuance_le := fun _ => Nat.zero_le _ }
  system := References.provideAll
  blockNumber := 0
  liquidityPool := ∅
  tradingPairStatuses := ∅
  provisioningPool := ∅
  exchangeFee := (1, 100)
  external := ()

def sampleSigner : Signer sampleConfig := ⟨1, by decide⟩

theorem sampleState_genesis : Genesis sampleConfig sampleState :=
  ⟨rfl, rfl, rfl, fun _ => rfl⟩

/-- A pair is enabled outright, supplied with liquidity and traded. -/
def tradingRun : List (Call sampleConfig) :=
  [.enableTradingPair .root (.Token .DNAR) (.Token .USDJ),
    .addLiquidity (.signed sampleSigner) (.Token .DNAR) (.Token .USDJ) 100 200 0 false,
    .swapWithExactSupply (.signed sampleSigner) [.Token .USDJ, .Token .DNAR] 50 1,
    .removeLiquidity (.signed sampleSigner) (.Token .DNAR) (.Token .USDJ) 80 1 1 false]

theorem tradingRun_meets :
    Machine.StepsMeet (step sampleConfig) (MeetsReserves sampleConfig) sampleState tradingRun := by
  refine ⟨trivial, ?_, ?_, trivial, trivial⟩
  · -- the pair is enabled already, so the contribution is not a provision
    rintro ⟨params, -, -, hst, -⟩
    have henabled : (step sampleConfig sampleState (.enableTradingPair .root (.Token .DNAR)
        (.Token .USDJ))).tradingPairStatus (TradingPair.new (.Token .DNAR) (.Token .USDJ))
        = .Enabled := by decide
    rw [henabled] at hst
    cases hst
  · -- the only hop is covered by its pool
    rintro ⟨amounts, hquote, -, -, hcov⟩
    cases hquote
    exact hcov ⟨by decide, trivial⟩

theorem reserves_exact_tradingRun :
    (Machine.run (step sampleConfig) sampleState tradingRun).ledger.free (.Token .DNAR) 0
      = poolTotal (Machine.run (step sampleConfig) sampleState tradingRun) (.Token .DNAR)
        + provisionTotal (Machine.run (step sampleConfig) sampleState tradingRun)
          (.Token .DNAR) :=
  reserves_exact_of_run sampleConfig sampleState sampleState_genesis tradingRun tradingRun_meets
    (.Token .DNAR)

/-- A pair is listed and provisioned up to its target of 10 and 20. -/
def provisioningRun : List (Call sampleConfig) :=
  [.listTradingPair .root (.Token .DNAR) (.Token .USDJ) 1 1 10 20 0,
    .addLiquidity (.signed sampleSigner) (.Token .DNAR) (.Token .USDJ) 10 20 0 false]

/-- **Enabling a provisioned pair loses track of its second side.** The account holds 20 USDJ for
a pool that records none. -/
theorem reserves_lost_on_enabling :
    Genesis sampleConfig sampleState ∧
      ¬ ∀ (calls : List (Call sampleConfig)) (c : CurrencyId),
        (Machine.run (step sampleConfig) sampleState calls).ledger.free c sampleConfig.accountId
          = poolTotal (Machine.run (step sampleConfig) sampleState calls) c
            + provisionTotal (Machine.run (step sampleConfig) sampleState calls) c := by
  refine ⟨sampleState_genesis, fun h => ?_⟩
  have hlaw := h provisioningRun (.Token .USDJ)
  revert hlaw
  decide

end Setheum.Dex
