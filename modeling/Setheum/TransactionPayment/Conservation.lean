import Setheum.TransactionPayment.Model

/-!
# What a transaction pays

The payer of a transaction loses what is handed to the handler of fees, no more and no less: the
actual fee if the rest of what was withdrawn can be refunded, and all of it otherwise.

* `preDispatch_spec` — what is withdrawn is the fee, and it is all that is withdrawn.
* `refundExcess_spec` — what was withdrawn is refunded or left as the payment, without a remainder.
* `postDispatch_conserves` — what the payer loses in both steps is what is handed over.
-/

set_option autoImplicit false

namespace Setheum.TransactionPayment

variable {A E : Type} [DecidableEq A] {cfg : Config A E} {s s₁ : State A E}

/-! ## Before the dispatch -/

/-- The balances that the fee is withdrawn from, after what was swapped for it. -/
def chargedBalances (cfg : Config A E) (s : State A E) (who : A) (fee tip : ℕ) : E :=
  if fee = 0 then s.balances
  else (ensureCanChargeFee cfg who fee (withdrawReason tip) s).balances

/-- **What is withdrawn is the fee.** Without a fee there is no imbalance. -/
theorem preDispatch_spec {tip : ℕ} {who : A} {info : DispatchInfo} {len : ℕ} {pre : Pre A}
    (h : (preDispatch cfg tip who info len).run s = .ok pre s₁) :
    let fee := computeFee cfg s.nextFeeMultiplier len info tip
    let charged := chargedBalances cfg s who fee tip
    pre = ⟨tip, who, if fee = 0 then none else some fee, fee⟩ ∧
      (∀ a, cfg.currency.freeBalance s₁.balances a + (if a = who then fee else 0)
        = cfg.currency.freeBalance charged a) ∧
      cfg.currency.issuance s₁.balances = cfg.currency.issuance charged := by
  intro fee charged
  obtain ⟨withdrawn, s', hwithdraw, hpre⟩ := Dispatch.run_bind_ok.mp h
  obtain ⟨rfl, rfl⟩ := Dispatch.run_pure_ok.mp hpre
  rw [withdrawFee, Dispatch.run_get_bind] at hwithdraw
  change (ite (fee = 0) _ _ : PaymentM A E _).run s = _ at hwithdraw
  by_cases hfee : fee = 0
  · rw [if_pos hfee] at hwithdraw
    obtain ⟨rfl, rfl⟩ := Dispatch.run_pure_ok.mp hwithdraw
    have hcharged : charged = s.balances := if_pos hfee
    rw [hcharged]
    exact ⟨by rw [if_pos hfee], fun a => by simp [hfee], rfl⟩
  · rw [if_neg hfee] at hwithdraw
    simp only [Dispatch.run_bind_ok, Dispatch.run_modify_ok, Dispatch.run_get_ok,
      Dispatch.run_okOr_ok, Dispatch.run_set_ok, Dispatch.run_pure_ok] at hwithdraw
    obtain ⟨_, _, rfl, _, _, ⟨rfl, rfl⟩, e, _, ⟨he, rfl⟩, _, _, rfl, rfl, rfl⟩ := hwithdraw
    have hcharged : charged = (ensureCanChargeFee cfg who fee (withdrawReason tip) s).balances :=
      if_neg hfee
    rw [hcharged]
    exact ⟨by rw [if_neg hfee], cfg.currency.freeBalance_withdraw he,
      cfg.currency.issuance_withdraw he⟩

/-! ## After the dispatch -/

/-- A part of an imbalance that is cancelled out leaves the rest. -/
theorem offset_of_le {payed refund : ℕ} (h : refund ≤ payed) :
    offset payed refund = if refund = payed then .None else .Same (payed - refund) := by
  unfold offset
  split
  · rw [if_neg (by omega)]
  · rw [if_neg (by omega), if_pos (by omega)]

/-- **A refund that is not more than what was withdrawn splits it in two**: what the payer gets
and what is left of the payment. -/
theorem refundExcess_spec (cfg : Config A E) (who : A) {payed refund : ℕ} (hle : refund ≤ payed)
    (t : State A E) :
    let credited := (cfg.currency.depositIntoExisting who refund t.balances).isSome
    let payment := if credited then payed - refund else payed
    ∃ e, (refundExcess cfg who payed refund).run t = .ok payment { t with balances := e } ∧
      cfg.currency.freeBalance e who + payment
        = cfg.currency.freeBalance t.balances who + payed ∧
      cfg.currency.issuance e = cfg.currency.issuance t.balances := by
  intro credited payment
  cases hdeposit : cfg.currency.depositIntoExisting who refund t.balances with
  | none =>
      have hpayment : payment = payed := by simp [payment, credited, hdeposit]
      refine ⟨t.balances, ?_, by rw [hpayment], rfl⟩
      rw [refundExcess, Dispatch.run_get_bind, hdeposit, hpayment]
      rfl
  | some e =>
      have hpayment : payment = payed - refund := by simp [payment, credited, hdeposit]
      have hfree := cfg.currency.freeBalance_depositIntoExisting hdeposit who
      rw [if_pos rfl] at hfree
      refine ⟨e, ?_, by omega, cfg.currency.issuance_depositIntoExisting hdeposit⟩
      rw [refundExcess, Dispatch.run_get_bind, hdeposit, offset_of_le hle, hpayment]
      refine Dispatch.run_bind_ok.mpr ⟨(), { t with balances := e }, rfl, ?_⟩
      by_cases heq : refund = payed
      · rw [if_pos heq, heq, Nat.sub_self]
        rfl
      · rw [if_neg heq]
        rfl

/-- What the handler does with all that it is handed. -/
def distribute (cfg : Config A E) (handed : List (ℕ × ℕ)) (e : E) : E :=
  handed.foldl (fun e payment => cfg.onTransactionPayment payment.1 payment.2 e) e

/-- **What the payer loses in both steps is what is handed over as fee and tip**: the actual fee,
if that is less than what was withdrawn and the rest can be credited, and else what was withdrawn.
The tip comes first. Between the steps anything may happen, and what the handler does comes after
them. -/
theorem postDispatch_conserves {tip : ℕ} {who : A} {info : DispatchInfo} {len : ℕ} {pre : Pre A}
    (hpre : (preDispatch cfg tip who info len).run s = .ok pre s₁) (post : PostDispatchInfo)
    (t : State A E) :
    let free := fun e => (cfg.currency.freeBalance e who : ℤ)
    let fee := computeFee cfg s.nextFeeMultiplier len info tip
    let actual := computeActualFee cfg t.nextFeeMultiplier len info post tip
    let credited := (cfg.currency.depositIntoExisting who (fee - actual) t.balances).isSome
    let payment := if credited then min fee actual else fee
    let charged := chargedBalances cfg s who fee tip
    ∃ e handed,
      (postDispatch cfg pre info post len).run t
        = .ok () { t with
            balances := distribute cfg handed e, payments := t.payments ++ handed } ∧
      (free charged - free s₁.balances) + (free t.balances - free e) = payment ∧
      (handed.map fun p => p.1 + p.2).sum = payment ∧
      (handed.map Prod.snd).sum = min tip payment ∧
      cfg.currency.issuance s₁.balances = cfg.currency.issuance charged ∧
      cfg.currency.issuance e = cfg.currency.issuance t.balances := by
  intro free fee actual credited payment charged
  obtain ⟨hpre, hfree, hissuance⟩ := preDispatch_spec hpre
  have hwithdrawn := hfree who
  rw [if_pos rfl] at hwithdrawn
  change _ + fee = cfg.currency.freeBalance charged who at hwithdrawn
  by_cases hfee : fee = 0
  · have hpayment : payment = 0 := by simp [payment, hfee]
    refine ⟨t.balances, [], ?_, ?_, by rw [hpayment]; rfl, by rw [hpayment, Nat.min_zero]; rfl,
      hissuance, rfl⟩
    · rw [hpre, if_pos hfee]
      simp only [postDispatch, distribute, List.foldl_nil, List.append_nil]
      rfl
    · simp only [free, hpayment]
      omega
  · have hle : fee - actual ≤ fee := Nat.sub_le _ _
    obtain ⟨e, hrefund, hbalance, hdropped⟩ := refundExcess_spec cfg who hle t
    have hpayment : (if (cfg.currency.depositIntoExisting who (fee - actual) t.balances).isSome
        then fee - (fee - actual) else fee) = payment := by
      simp only [payment, credited]
      congr 1
      omega
    rw [hpayment] at hrefund hbalance
    have hsplit : payment - min payment tip + min payment tip = payment := by omega
    refine ⟨e, [(payment - min payment tip, min payment tip)], ?_, ?_, ?_, ?_, hissuance, hdropped⟩
    · rw [hpre, if_neg hfee]
      simp only [postDispatch, distribute, List.foldl_cons, List.foldl_nil]
      rw [Dispatch.run_get_bind]
      exact Dispatch.run_bind_ok.mpr ⟨payment, _, hrefund, rfl⟩
    · simp only [free]
      omega
    · simp [hsplit]
    · simp [Nat.min_comm]

/-! ## A transaction that is refunded in part -/

structure SampleBalances where
  free : ℕ → ℕ
  issuance : ℕ

/-- A pallet with an existential deposit of ten. -/
def sampleCurrency : Currency ℕ SampleBalances where
  freeBalance e := e.free
  issuance e := e.issuance
  ensureCanWithdraw _ _ _ _ newFreeBalance := 10 ≤ newFreeBalance
  withdraw who n _ e :=
    if n + 10 ≤ e.free who then
      some { e with free := fun a => if a = who then e.free a - n else e.free a }
    else none
  depositIntoExisting who n e :=
    if 10 ≤ e.free who then
      some { e with free := fun a => if a = who then e.free a + n else e.free a }
    else none
  dropPositive n e := { e with issuance := Balance.saturatingAdd e.issuance n }
  freeBalance_withdraw h a := by
    split at h
    · rename_i hle
      cases h
      grind
    · cases h
  issuance_withdraw h := by
    split at h
    · cases h
      rfl
    · cases h
  freeBalance_depositIntoExisting h a := by
    split at h
    · cases h
      grind
    · cases h
  issuance_depositIntoExisting h := by
    split at h
    · cases h
      rfl
    · cases h
  freeBalance_dropPositive _ _ _ := rfl
  issuance_dropPositive _ _ := rfl

/-- One unit of fee for each unit of weight and length. The handler burns what it is handed. -/
def sampleConfig : Config ℕ SampleBalances where
  allNonNativeCurrencyIds := [.Token .SETT]
  nativeCurrencyId := .Token .DNAR
  getSetterCurrencyId := .Token .SETT
  currency := sampleCurrency
  multiFreeBalance _ _ _ := 0
  swapWithExactTarget _ _ _ _ _ _ := none
  maxSlippageSwapWithDex := 0
  transactionByteFee := 1
  weightToFeeCalc weight := weight
  maxBlock := 1000
  baseExtrinsic _ := 5
  onTransactionPayment fee tip e := { e with issuance := e.issuance - (fee + tip) }

def sampleState : State ℕ SampleBalances where
  balances := { free := fun a => if a = 1 then 500 else 0, issuance := 500 }
  nextFeeMultiplier := FixedU128.accuracy
  defaultFeeCurrencyId _ := none
  payments := []

/-- A fee of 145 is withdrawn, for a length of 20, a weight of 100 and a tip of 20. -/
def sampleWithdrawn : State ℕ SampleBalances :=
  { sampleState with
    balances :=
      { free := fun a =>
          if a = 1 then sampleState.balances.free a - 145 else sampleState.balances.free a
        issuance := 500 } }

def sampleInfo : DispatchInfo := ⟨100, .Normal, .Yes⟩

theorem preDispatch_sample :
    (preDispatch sampleConfig 20 1 sampleInfo 20).run sampleState
      = .ok ⟨20, 1, some 145, 145⟩ sampleWithdrawn := by
  rfl

/-- The dispatch takes a weight of 40, so that 60 are refunded and 85 paid, 20 of them the tip. -/
theorem postDispatch_conserves_sample :
    ∃ e handed,
      (postDispatch sampleConfig ⟨20, 1, some 145, 145⟩ sampleInfo ⟨some 40, .Yes⟩ 20).run
          sampleWithdrawn
        = .ok () { sampleWithdrawn with
            balances := distribute sampleConfig handed e, payments := handed } ∧
      ((500 : ℤ) - 355) + (355 - e.free 1) = 85 ∧
      (handed.map fun p => p.1 + p.2).sum = 85 ∧ (handed.map Prod.snd).sum = 20 := by
  obtain ⟨e, handed, hrun, hloss, hpaid, htip, -⟩ :=
    postDispatch_conserves preDispatch_sample ⟨some 40, .Yes⟩ sampleWithdrawn
  exact ⟨e, handed, hrun, hloss, hpaid, htip⟩

end Setheum.TransactionPayment
