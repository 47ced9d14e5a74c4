import Setheum.ChainBridge.Bridge

/-!
# What crosses the bridge

`outgoing` and `incoming` are what the successful calls of a run took out of the chain and brought
in, for each currency. They are no storage of the pallet: only the balances are.

* `conserves_step` — one call moves the supply by what crosses.
* `conserves_of_run` — a currency of this chain keeps its issuance, and the bridge's account holds
  what went out and has not come back; a bridged currency's issuance is what came in less what went
  out.
-/

set_option autoImplicit false

namespace Setheum.ChainBridge

open StorageMap

variable {A E : Type} [DecidableEq A] (cfg : Config A E)

/-! ## What a call takes across -/

/-- What a call takes out if it succeeds. -/
def Call.amountOut (c : CurrencyId) : Call cfg → ℕ
  | .transferToBridge _ currencyId _ _ amount => if c = currencyId then amount else 0
  | .transferNativeToBridge _ _ _ amount => if c = cfg.nativeCurrencyId then amount else 0
  | _ => 0

/-- What a call brings in if it succeeds. -/
def Call.amountIn (s : State A E) (c : CurrencyId) : Call cfg → ℕ
  | .transferFromBridge _ amount resourceId =>
      if s.currencyIds.lookup resourceId = some c then amount else 0
  | _ => 0

/-- The total that a run takes out of the chain. -/
def outgoing (c : CurrencyId) : State A E → List (Call cfg) → ℕ
  | _, [] => 0
  | s, call :: calls =>
      (if Dispatch.succeeds (call.call cfg) s then call.amountOut cfg c else 0)
        + outgoing c (step cfg s call) calls

/-- The total that a run brings in. -/
def incoming (c : CurrencyId) : State A E → List (Call cfg) → ℕ
  | _, [] => 0
  | s, call :: calls =>
      (if Dispatch.succeeds (call.call cfg) s then call.amountIn cfg s c else 0)
        + incoming c (step cfg s call) calls

/-! ## Conservation -/

variable {cfg}

/-- From one state to the other `out` of the currency left the chain and `inc` came in. -/
def Conserves (cfg : Config A E) (c : CurrencyId) (s s' : State A E) (out inc : ℕ) : Prop :=
  match bridgedResource c with
  | none =>
      s'.ledger.issuance c = s.ledger.issuance c ∧
        s'.ledger.free c cfg.accountId + inc = s.ledger.free c cfg.accountId + out
  | some _ => s'.ledger.issuance c + out = s.ledger.issuance c + inc

section Conserves

variable {c : CurrencyId} {s s' s'' : State A E} {out inc out' inc' : ℕ}

omit [DecidableEq A] in
/-- Nothing crosses where neither the issuance nor the bridge's account changes. -/
theorem Conserves.of_unchanged (hissuance : s'.ledger.issuance c = s.ledger.issuance c)
    (hfree : s'.ledger.free c cfg.accountId = s.ledger.free c cfg.accountId) :
    Conserves cfg c s s' 0 0 := by
  unfold Conserves
  rw [hissuance, hfree]
  split
  · exact ⟨rfl, rfl⟩
  · rfl

omit [DecidableEq A] in
theorem Conserves.refl : Conserves cfg c s s 0 0 := .of_unchanged rfl rfl

omit [DecidableEq A] in
theorem Conserves.trans (h : Conserves cfg c s s' out inc)
    (h' : Conserves cfg c s' s'' out' inc') :
    Conserves cfg c s s'' (out + out') (inc + inc') := by
  unfold Conserves at *
  split
  · rename_i hc
    simp only [hc] at h h'
    exact ⟨h'.1.trans h.1, by omega⟩
  · rename_i hc
    simp only [hc] at h h'
    omega

/-- Nobody but the bridge's account is a party to what crosses. -/
theorem conserves_out {who : Outsider cfg} {currencyId : CurrencyId} {destChainId : ChainId}
    {recipient : List Byte} {amount : ℕ} {u : Unit} (hs : Registry cfg s)
    (h : (doTransferToBridge cfg who currencyId destChainId recipient amount).run s = .ok u s') :
    Conserves cfg c s s' (if c = currencyId then amount else 0) 0 := by
  obtain ⟨resourceId, l, e, hr, hl, rfl⟩ := doTransferToBridge_ok h
  have hkind := hs.bridgedResource_eq ((hs.mirrors currencyId resourceId).mp hr)
  by_cases hc : c = currencyId
  · subst hc
    unfold Conserves
    rw [hkind, if_pos rfl]
    split at hl
    · rename_i ho
      have hfree := Ledger.transfer_free hl c cfg.accountId
      rw [if_neg fun hw => who.2 hw.2.symm, if_pos ⟨rfl, rfl⟩] at hfree
      simp only [ho, if_true]
      exact ⟨congrFun (Ledger.transfer_issuance hl) c, hfree⟩
    · rename_i ho
      have hissuance := Ledger.withdraw_issuance hl c
      rw [if_pos rfl] at hissuance
      simp only [ho]
      exact hissuance
  · rw [if_neg hc]
    split at hl
    · have hfree := Ledger.transfer_free hl c cfg.accountId
      rw [if_neg fun hw => hc hw.1, if_neg fun hw => hc hw.1] at hfree
      exact .of_unchanged (congrFun (Ledger.transfer_issuance hl) c) hfree
    · have hfree := Ledger.withdraw_free hl c cfg.accountId
      have hissuance := Ledger.withdraw_issuance hl c
      rw [if_neg fun hw => hc hw.1] at hfree
      rw [if_neg hc] at hissuance
      exact .of_unchanged hissuance hfree

theorem conserves_in {recipient : Outsider cfg} {amount : ℕ} {resourceId : ResourceId} {u : Unit}
    (hs : Registry cfg s)
    (h : (transferFromBridge cfg recipient amount resourceId).run s = .ok u s') :
    Conserves cfg c s s' 0
      (if s.currencyIds.lookup resourceId = some c then amount else 0) := by
  obtain ⟨currencyId, l, hr, hl, rfl⟩ := transferFromBridge_ok h
  have hkind := hs.bridgedResource_eq hr
  rw [hr]
  by_cases hc : currencyId = c
  · subst hc
    unfold Conserves
    rw [hkind, if_pos rfl]
    split at hl
    · rename_i ho
      have hfree := Ledger.transfer_free hl currencyId cfg.accountId
      rw [if_pos ⟨rfl, rfl⟩, if_neg fun hw => recipient.2 hw.2.symm] at hfree
      simp only [ho, if_true]
      exact ⟨congrFun (Ledger.transfer_issuance hl) currencyId, hfree⟩
    · rename_i ho
      have hissuance := Ledger.deposit_issuance hl currencyId
      rw [if_pos rfl] at hissuance
      simp only [ho]
      exact hissuance
  · have hc' : c ≠ currencyId := fun h => hc h.symm
    rw [if_neg fun hw => hc (Option.some.inj hw)]
    split at hl
    · have hfree := Ledger.transfer_free hl c cfg.accountId
      rw [if_neg fun hw => hc' hw.1, if_neg fun hw => hc' hw.1] at hfree
      exact .of_unchanged (congrFun (Ledger.transfer_issuance hl) c) hfree
    · have hfree := Ledger.deposit_free hl c cfg.accountId
      have hissuance := Ledger.deposit_issuance hl c
      rw [if_neg fun hw => hc' hw.1] at hfree
      rw [if_neg hc'] at hissuance
      exact .of_unchanged hissuance hfree

theorem conserves_body {call : Call cfg} {u : Unit} (hs : Registry cfg s)
    (h : (call.body cfg).run s = .ok u s') :
    Conserves cfg c s s' (call.amountOut cfg c) (call.amountIn cfg s c) := by
  cases call with
  | registerResourceId resourceId currencyId =>
      obtain ⟨-, -, -, rfl⟩ := registerResourceId_ok h
      exact .of_unchanged rfl rfl
  | removeResourceId resourceId =>
      obtain rfl := Dispatch.run_modify_ok.mp h
      cases s.currencyIds.lookup resourceId with
      | none => exact .refl
      | some currencyId => exact .of_unchanged rfl rfl
  | transferToBridge who currencyId destChainId recipient amount => exact conserves_out hs h
  | transferNativeToBridge who destChainId recipient amount => exact conserves_out hs h
  | transferFromBridge recipient amount resourceId => exact conserves_in hs h

/-- What a call moves counts if the call succeeds. -/
theorem conserves_step (hs : Registry cfg s) (call : Call cfg) :
    Conserves cfg c s (step cfg s call)
      (if Dispatch.succeeds (call.call cfg) s then call.amountOut cfg c else 0)
      (if Dispatch.succeeds (call.call cfg) s then call.amountIn cfg s c else 0) := by
  unfold step Call.call
  rcases Dispatch.commit_transactional (call.body cfg) s with
    ⟨u, s', hok, hcommit⟩ | ⟨hfails, hcommit⟩
  · have hsucceeds := Dispatch.succeeds_of_ok (Dispatch.run_transactional_ok.mpr hok)
    rw [hcommit, if_pos hsucceeds, if_pos hsucceeds]
    exact conserves_body hs hok
  · rw [hcommit, hfails]
    exact .refl

end Conserves

/-- **Over a run of calls, successful or failed, a currency of this chain keeps its issuance and
the bridge's account holds what was locked and not released, and a bridged currency's issuance
changes by what came in less what went out.** -/
theorem conserves_of_run {s : State A E} (hs : Genesis s) (calls : List (Call cfg))
    (c : CurrencyId) :
    Conserves cfg c s (Machine.run (step cfg) s calls) (outgoing cfg c s calls)
      (incoming cfg c s calls) := by
  have hrun : ∀ (calls : List (Call cfg)) (s : State A E), Registry cfg s →
      Conserves cfg c s (Machine.run (step cfg) s calls) (outgoing cfg c s calls)
        (incoming cfg c s calls) := by
    intro calls
    induction calls with
    | nil => exact fun s _ => .refl
    | cons call calls ih =>
        intro s hs
        exact (conserves_step hs call).trans (ih (step cfg s call) (hs.step call))
  exact hrun calls s (hs.registry cfg)

/-- Thirty of the native currency leave and ten come back; fifty of the bridged one come in and
twenty leave, and no more once its resource is taken out. -/
theorem sampleCalls_conserves :
    Conserves sampleConfig (.Token .DNAR) sampleState
        (Machine.run (step sampleConfig) sampleState sampleCalls) 30 10 ∧
      Conserves sampleConfig (.ChainBridge 2) sampleState
        (Machine.run (step sampleConfig) sampleState sampleCalls) 20 50 := by
  have hnative := conserves_of_run sampleState_genesis sampleCalls (.Token .DNAR)
  have hbridged := conserves_of_run sampleState_genesis sampleCalls (.ChainBridge 2)
  have hout : outgoing sampleConfig (.Token .DNAR) sampleState sampleCalls = 30 ∧
      incoming sampleConfig (.Token .DNAR) sampleState sampleCalls = 10 := by decide +kernel
  have hin : outgoing sampleConfig (.ChainBridge 2) sampleState sampleCalls = 20 ∧
      incoming sampleConfig (.ChainBridge 2) sampleState sampleCalls = 50 := by decide +kernel
  rw [hout.1, hout.2] at hnative
  rw [hin.1, hin.2] at hbridged
  exact ⟨hnative, hbridged⟩

end Setheum.ChainBridge
