import Setheum.Evm.ScheduledFees

/-!
# What a scheduled call is charged

When a scheduled call is due, the fee for its whole gas limit is taken, and the fee for the gas it
left is given back. What is kept should cover the gas it used, and be handed to the handler of
fees. Both fees are for a weight that is capped at that of a block, each for itself, and the
handler is only reached through the refund.

* `scheduledCall_spec` — what a call that ends without an error leaves, whatever the handler is.
* `settles_iff` — the fee is settled exactly if the fees of what was used and of what was left are
  together at most the whole fee, and some gas was left unless there is no fee at all.
-/

set_option autoImplicit false

namespace Setheum.ScheduleCall

open Dispatch

variable {A E : Type} [DecidableEq A] {cfg : Config A E} {s s' : State A E}

def Outcome.usedGas : Outcome A → ℕ
  | .dispatchError => 0
  | .reverted usedGas => usedGas
  | .succeeded usedGas _ => usedGas

/-- The fee of an amount of gas. -/
def gasFee (cfg : Config A E) (gas : ℕ) : ℕ := weightToFee cfg (cfg.gasToWeight gas)

/-- A scheduled call up to the refund: it is charged, and run. -/
def chargeAndCall (cfg : Config A E) (call : ScheduledCall) (outcome : Outcome A) :
    ScheduleM A E ℕ := do
  let payed ← wrapError (fun _ => .ChargeFeeFailed)
    (unreserveAndChargeFee cfg (cfg.getAccountId call.sender) (cfg.gasToWeight call.gasLimit))
  let _ ← runnerCall cfg outcome
  pure payed

/-- The state that the refund is made in. -/
def called (cfg : Config A E) (call : ScheduledCall) (outcome : Outcome A) (s : State A E) :
    State A E :=
  commit (chargeAndCall cfg call outcome) s

def credit (who : A) (n : ℕ) (free : A → ℕ) : A → ℕ :=
  fun a => if a = who then free a + n else free a

/-- Of the whole fee an amount is kept that covers the gas that was used. The sender gets the rest
back, and whatever the handler is, it is handed what is kept, if anything is. -/
def Settles (cfg : Config A E) (call : ScheduledCall) (outcome : Outcome A) (s : State A E) :
    Prop :=
  ∃ kept, gasFee cfg outcome.usedGas ≤ kept ∧ kept ≤ call.fee cfg ∧
    ∀ handler : ℕ → (A → ℕ) → A → ℕ,
      let last := commit (scheduledCall { cfg with onTransactionPayment := handler } call outcome) s
      let refunded := credit (cfg.getAccountId call.sender) (call.fee cfg - kept)
        (called cfg call outcome s).balances.free
      last.balances.free = handler kept refunded ∨ (kept = 0 ∧ last.balances.free = refunded)

/-- The condition on the gas. -/
def RefundCovers (cfg : Config A E) (gasLimit usedGas : ℕ) : Prop :=
  if usedGas < gasLimit then
    gasFee cfg usedGas + gasFee cfg (gasLimit - usedGas) ≤ gasFee cfg gasLimit
  else gasFee cfg gasLimit = 0

instance (gasLimit usedGas : ℕ) : Decidable (RefundCovers cfg gasLimit usedGas) :=
  inferInstanceAs (Decidable (ite _ _ _))

omit [DecidableEq A] in
theorem gasFee_mono (hgas : Monotone cfg.gasToWeight) (hfee : Monotone cfg.weightToFeeCalc) :
    Monotone (gasFee cfg) := fun _ _ hle =>
  hfee (min_le_min_right cfg.maxBlock (hgas hle))

/-! ## What a call leaves -/

/-- The fee that is charged is the fee of the call. -/
theorem unreserveAndChargeFee_payed {who : A} {weight payed : ℕ}
    (h : (unreserveAndChargeFee cfg who weight).run s = .ok payed s') :
    payed = weightToFee cfg weight := by
  obtain ⟨_, s₁, -, h⟩ := run_bind_ok.mp h
  rw [run_get_bind] at h
  obtain ⟨_, s₂, -, h⟩ := run_bind_ok.mp h
  obtain ⟨_, s₃, -, h⟩ := run_bind_ok.mp h
  exact (run_pure_ok.mp h).1.symm

theorem runnerCall_usedGas {outcome : Outcome A} {usedGas : ℕ}
    (h : (runnerCall cfg outcome).run s = .ok usedGas s') : usedGas = outcome.usedGas := by
  cases outcome with
  | dispatchError => exact (run_throw_ok.mp h).elim
  | reverted used => exact (run_pure_ok.mp h).1.symm
  | succeeded used acts =>
      obtain ⟨_, s₁, -, h⟩ := run_bind_ok.mp h
      exact (run_pure_ok.mp h).1.symm

/-- A refund to an account that is alive. It is at most what was paid. -/
theorem refundFee_alive (cfg : Config A E) {who : A} {weight payed : ℕ}
    (halive : cfg.depositAllowed s.balances who = true) (hle : weightToFee cfg weight ≤ payed) :
    (commit (ignore (refundFee cfg who weight payed)) s).balances.free
      = cfg.onTransactionPayment (payed - weightToFee cfg weight)
          (credit who (weightToFee cfg weight) s.balances.free) := by
  have hrun : ∃ t, (refundFee cfg who weight payed).run s = .ok () t ∧
      t.balances.free = cfg.onTransactionPayment (payed - weightToFee cfg weight)
        (credit who (weightToFee cfg weight) s.balances.free) := by
    refine ⟨⟨⟨cfg.onTransactionPayment (payed - weightToFee cfg weight)
      (credit who (weightToFee cfg weight) s.balances.free), s.balances.reserved⟩, s.nextId,
      s.scheduler⟩, ?_, rfl⟩
    rw [refundFee, run_get_bind, if_pos halive]
    exact run_bind_ok.mpr ⟨_, _, rfl, run_bind_ok.mpr
      ⟨(), _, run_ensure_ok.mpr ⟨hle, rfl⟩, rfl⟩⟩
  obtain ⟨t, hrun, hfree⟩ := hrun
  have hcommit : commit (ignore (refundFee cfg who weight payed)) s
      = commit (refundFee cfg who weight payed) s := rfl
  rw [hcommit, commit_of_ok hrun, hfree]

/-- **What a call that ends without an error leaves.** With gas left the sender gets the fee for it
back and the handler the rest; with none left the handler gets nothing. -/
theorem scheduledCall_spec {call : ScheduledCall} {outcome : Outcome A} {u : Unit}
    (hmono : Monotone (gasFee cfg))
    (hrun : (scheduledCall cfg call outcome).run s = .ok u s')
    (halive : cfg.depositAllowed (called cfg call outcome s).balances
      (cfg.getAccountId call.sender) = true) (handler : ℕ → (A → ℕ) → A → ℕ) :
    let last := commit (scheduledCall { cfg with onTransactionPayment := handler } call outcome) s
    let free := (called cfg call outcome s).balances.free
    let refund := gasFee cfg (call.gasLimit - outcome.usedGas)
    last.balances.free =
      if outcome.usedGas < call.gasLimit then
        handler (call.fee cfg - refund) (credit (cfg.getAccountId call.sender) refund free)
      else free := by
  obtain ⟨payed, s₁, hcharge, hrun⟩ := run_bind_ok.mp (run_transactional_ok.mp hrun)
  obtain ⟨usedGas, s₂, hcall, hrun⟩ := run_bind_ok.mp hrun
  obtain rfl := unreserveAndChargeFee_payed (run_wrapError_ok.mp hcharge)
  obtain rfl := runnerCall_usedGas hcall
  have hcalled : called cfg call outcome s = s₂ :=
    commit_of_ok (run_bind_ok.mpr ⟨_, s₁, hcharge, run_bind_ok.mpr ⟨_, s₂, hcall, rfl⟩⟩)
  rw [hcalled] at halive ⊢
  intro last free refund
  set cfg' := { cfg with onTransactionPayment := handler }
  have hlast : ∀ t, (when (call.gasLimit - outcome.usedGas ≠ 0)
      (ignore (refundFee cfg' (cfg.getAccountId call.sender)
        (cfg.gasToWeight (call.gasLimit - outcome.usedGas)) (call.fee cfg)))).run s₂ = .ok () t →
      last = t := fun t ht =>
    commit_of_ok (run_transactional_ok.mpr (run_bind_ok.mpr
      ⟨_, s₁, hcharge, run_bind_ok.mpr ⟨_, s₂, hcall, ht⟩⟩))
  by_cases hleft : outcome.usedGas < call.gasLimit
  · rw [if_pos hleft, hlast _ (run_when_ok.mpr (.inl ⟨by omega, rfl⟩))]
    exact refundFee_alive cfg' halive (hmono (Nat.sub_le _ _))
  · rw [if_neg hleft, hlast _ (run_when_ok.mpr (.inr ⟨by omega, rfl⟩))]

/-! ## When the fee is settled -/

section Settling

variable {call : ScheduledCall} {outcome : Outcome A} {u : Unit}
  (hgas : Monotone cfg.gasToWeight) (hfee : Monotone cfg.weightToFeeCalc)
  (hrun : (scheduledCall cfg call outcome).run s = .ok u s')
  (halive : cfg.depositAllowed (called cfg call outcome s).balances
    (cfg.getAccountId call.sender) = true)

include hgas hfee hrun halive

theorem RefundCovers.settles (hused : outcome.usedGas ≤ call.gasLimit)
    (h : RefundCovers cfg call.gasLimit outcome.usedGas) : Settles cfg call outcome s := by
  have hmono := gasFee_mono hgas hfee
  have hspec := scheduledCall_spec hmono hrun halive
  have hwhole : call.fee cfg = gasFee cfg call.gasLimit := rfl
  unfold RefundCovers at h
  by_cases hleft : outcome.usedGas < call.gasLimit
  · rw [if_pos hleft, ← hwhole] at h
    refine ⟨call.fee cfg - gasFee cfg (call.gasLimit - outcome.usedGas), by omega,
      Nat.sub_le _ _, fun handler => .inl ?_⟩
    rw [hspec handler, if_pos hleft, Nat.sub_sub_self (by omega)]
  · rw [if_neg hleft, ← hwhole] at h
    have hzero : gasFee cfg outcome.usedGas ≤ 0 := by
      rw [← h, hwhole]
      exact hmono hused
    refine ⟨0, hzero, Nat.zero_le _, fun handler => .inr ⟨rfl, ?_⟩⟩
    rw [hspec handler, if_neg hleft, h]
    funext a
    simp [credit]

/-- A handler that counts what it is handed shows what was kept. -/
theorem Settles.refundCovers (h : Settles cfg call outcome s) :
    RefundCovers cfg call.gasLimit outcome.usedGas := by
  have hmono := gasFee_mono hgas hfee
  obtain ⟨kept, hcovers, hle, hhanded⟩ := h
  have hcount := hhanded fun n free a => free a + 2 * n + 1
  have hwhole : call.fee cfg = gasFee cfg call.gasLimit := rfl
  have hrefund : gasFee cfg (call.gasLimit - outcome.usedGas) ≤ call.fee cfg :=
    hmono (Nat.sub_le _ _)
  dsimp only at hcount
  rw [scheduledCall_spec hmono hrun halive] at hcount
  -- what the sender has, with what the handler counted
  have hsender := hcount.imp (congrFun · (cfg.getAccountId call.sender))
    (And.imp_right (congrFun · (cfg.getAccountId call.sender)))
  unfold RefundCovers
  by_cases hleft : outcome.usedGas < call.gasLimit
  · rw [if_pos hleft] at hsender ⊢
    simp only [credit, if_true] at hsender
    omega
  · rw [if_neg hleft] at hsender ⊢
    simp only [credit, if_true] at hsender
    omega

/-- **The fee of a call is settled exactly if the refund leaves enough of it and goes with some
gas that was left**, unless there is no fee. -/
theorem settles_iff (hused : outcome.usedGas ≤ call.gasLimit) :
    Settles cfg call outcome s ↔ RefundCovers cfg call.gasLimit outcome.usedGas :=
  ⟨Settles.refundCovers hgas hfee hrun halive,
    RefundCovers.settles hgas hfee hrun halive hused⟩

end Settling

/-! ## Calls that are not settled -/

/-- Fees are the gas, and stop growing at the largest balance. -/
def cappedConfig : Config ℕ SampleScheduler :=
  { sampleConfig with
    weightToFeeCalc := fun weight => min weight (2 ^ 128 - 1)
    weightToFeeCalc_lt := fun weight => by omega }

def sampleCall (gasLimit : ℕ) : ScheduledCall := ⟨1, 2, [], 0, gasLimit, 100⟩

/-- An account with the fee of a call reserved, and as much again. -/
def sampleDue (fee : ℕ) : State ℕ SampleScheduler :=
  { sampleState with balances := ⟨fun _ => fee, fun _ => fee⟩ }

theorem settles_iff_sample :
    Settles cappedConfig (sampleCall 300000) (.reverted 21000) (sampleDue 300000) ↔
      RefundCovers cappedConfig 300000 21000 :=
  settles_iff (fun _ _ h => h) (fun _ _ h => min_le_min_right _ h)
    (run_eq_commit (by decide +kernel)) rfl (by decide)

/-- **A call that uses all of its gas is charged, and nobody is handed the fee. A call whose gas
limit weighs three blocks and that uses one of them is charged nothing.** -/
theorem settles_fails :
    ¬ Settles cappedConfig (sampleCall 300000) (.reverted 300000) (sampleDue 300000) ∧
      ¬ Settles cappedConfig (sampleCall (3 * 10 ^ 12)) (.reverted (10 ^ 12))
        (sampleDue (10 ^ 12)) := by
  constructor
  · intro h
    have hcovers := h.refundCovers (fun _ _ h => h) (fun _ _ h => min_le_min_right _ h)
      (run_eq_commit (by decide +kernel)) rfl
    exact absurd hcovers (by decide +kernel)
  · intro h
    have hcovers := h.refundCovers (fun _ _ h => h) (fun _ _ h => min_le_min_right _ h)
      (run_eq_commit (by decide +kernel)) rfl
    exact absurd hcovers (by decide +kernel)

end Setheum.ScheduleCall
