import Setheum.Evm.ScheduleCall
import Setheum.Lib.Run

/-!
# The fees reserved for scheduled calls

What an account has reserved is the sum of the fees of its pending tasks, all along a run, exactly
if every call that is dispatched with a fee is charged and run. A call that ends in a dispatch
error is rolled back, and the release of its fee with it, but the task is gone.

* `Accounted.perform` — what contracts do keeps the books.
* `accounted_step_iff` — when one step keeps them.
* `fees_iff` — the reserves are the fees of the pending tasks exactly if no dispatch fails.
-/

set_option autoImplicit false

namespace Setheum.ScheduleCall

open StorageMap Dispatch

variable {A E : Type} [DecidableEq A] {cfg : Config A E} {s s' : State A E}

/-! ## The books -/

/-- The fee for the whole gas limit of a call. -/
def ScheduledCall.fee (cfg : Config A E) (call : ScheduledCall) : ℕ :=
  weightToFee cfg (cfg.gasToWeight call.gasLimit)

/-- The fee in a task identifier, if the task is of this account. -/
def feeAt (cfg : Config A E) (who : A) (taskId : List UInt8) : ℕ :=
  match cfg.decode taskId with
  | some info => if cfg.getAccountId info.sender = who then info.fee else 0
  | none => 0

/-- The fees of the pending tasks of an account. -/
def pendingFees (cfg : Config A E) (who : A) (e : E) : ℕ :=
  sumBy (fun taskId _ => feeAt cfg who taskId) (cfg.scheduler.pending e)

/-- The task identifier spells the sender and the fee of the call. -/
def Names (cfg : Config A E) (taskId : List UInt8) (call : ScheduledCall) : Prop :=
  ∃ info, cfg.decode taskId = some info ∧ info.sender = call.sender ∧ info.fee = call.fee cfg

/-- The pending tasks are named after their calls, and what is reserved are their fees. -/
structure Accounted (cfg : Config A E) (s : State A E) : Prop where
  named : ∀ taskId call, (cfg.scheduler.pending s.scheduler).lookup taskId = some call →
    Names cfg taskId call
  reserved : ∀ who, s.balances.reserved who = pendingFees cfg who s.scheduler

omit [DecidableEq A] in
/-- Only free balances changed. -/
def SameBooks (s s' : State A E) : Prop :=
  s'.balances.reserved = s.balances.reserved ∧ s'.scheduler = s.scheduler

theorem Accounted.of_same (h : Accounted cfg s) (hsame : SameBooks s s') : Accounted cfg s' := by
  obtain ⟨hreserved, hscheduler⟩ := hsame
  constructor
  · rw [hscheduler]
    exact h.named
  · intro who
    rw [hreserved, hscheduler]
    exact h.reserved who

theorem Names.feeAt {taskId : List UInt8} {call : ScheduledCall} (h : Names cfg taskId call)
    (who : A) : feeAt cfg who taskId =
      if who = cfg.getAccountId call.sender then call.fee cfg else 0 := by
  obtain ⟨info, hdecode, hsender, hfee⟩ := h
  unfold ScheduleCall.feeAt
  rw [hdecode]
  simp only [hsender, hfee, eq_comm]

/-- A new task adds its fee. -/
theorem pendingFees_insert {e e' : E} {taskId : List UInt8} {call : ScheduledCall}
    (hnew : (cfg.scheduler.pending e).lookup taskId = none)
    (h : cfg.scheduler.pending e' = (cfg.scheduler.pending e).insert taskId call) (who : A) :
    pendingFees cfg who e' = pendingFees cfg who e + feeAt cfg who taskId := by
  have hsum := sumBy_insert_add (fun taskId _ => feeAt cfg who taskId)
    (cfg.scheduler.pending e) taskId call
  rw [weightAt_of_notMem _ hnew, Nat.add_zero, ← h] at hsum
  exact hsum

/-- A task that is cancelled or handed out takes its fee away. -/
theorem pendingFees_erase {e e' : E} {taskId : List UInt8} {call : ScheduledCall}
    (hold : (cfg.scheduler.pending e).lookup taskId = some call)
    (h : cfg.scheduler.pending e' = (cfg.scheduler.pending e).erase taskId) (who : A) :
    pendingFees cfg who e' + feeAt cfg who taskId = pendingFees cfg who e := by
  have hsum := sumBy_erase_add (fun taskId _ => feeAt cfg who taskId)
    (cfg.scheduler.pending e) taskId
  rw [weightAt_of_lookup _ hold, ← h] at hsum
  exact hsum

/-- Releasing the fee of a task that is no longer pending. -/
theorem Accounted.release {taskId : List UInt8} {call : ScheduledCall} {e' : E}
    (h : Accounted cfg s)
    (hold : (cfg.scheduler.pending s.scheduler).lookup taskId = some call)
    (herase : cfg.scheduler.pending e' = (cfg.scheduler.pending s.scheduler).erase taskId)
    (hscheduler : s'.scheduler = e')
    (hreserved : s'.balances.reserved = (Reserves.unreserve (cfg.getAccountId call.sender)
      (call.fee cfg) s.balances).reserved) : Accounted cfg s' := by
  constructor
  · intro taskId' call' hlookup
    rw [hscheduler, herase] at hlookup
    by_cases heq : taskId' = taskId
    · rw [heq, AList.lookup_erase] at hlookup
      cases hlookup
    · rw [AList.lookup_erase_ne heq] at hlookup
      exact h.named taskId' call' hlookup
  · intro who
    have hfee := (h.named taskId call hold).feeAt who
    have herased := pendingFees_erase hold herase who
    have hbefore := h.reserved who
    rw [hreserved, hscheduler, Reserves.unreserve_reserved_sub]
    omega

/-! ## What the functions do -/

omit [DecidableEq A] in
theorem modifyFree_ok {f : (A → ℕ) → A → ℕ} {u : Unit}
    (h : (modifyFree f : ScheduleM A E Unit).run s = .ok u s') : SameBooks s s' := by
  rw [← run_modify_ok.mp h]
  exact ⟨rfl, rfl⟩

omit [DecidableEq A] in
theorem onScheduler_ok {f : E → Except Error E} {u : Unit}
    (h : (onScheduler f : ScheduleM A E Unit).run s = .ok u s') :
    f s.scheduler = .ok s'.scheduler ∧ s'.balances = s.balances ∧ s'.nextId = s.nextId := by
  obtain ⟨e, he, rfl⟩ := run_onComponent_ok.mp h
  exact ⟨he, rfl, rfl⟩

theorem eq_some_of_elim {o : Option E} {error : Error} {e : E}
    (h : o.elim (.error error) .ok = (.ok e : Except Error E)) : o = some e := by
  cases o with
  | none => cases h
  | some e' =>
      cases h
      rfl

theorem reserveFee_ok {who : A} {weight fee : ℕ}
    (h : (reserveFee cfg who weight).run s = .ok fee s') :
    fee = weightToFee cfg weight ∧ s'.scheduler = s.scheduler ∧
      ∀ a, s'.balances.reserved a = s.balances.reserved a + if a = who then fee else 0 := by
  obtain ⟨_, s₁, hfree, h⟩ := run_bind_ok.mp h
  obtain ⟨_, s₂, hreserve, h⟩ := run_bind_ok.mp h
  obtain ⟨rfl, rfl⟩ := run_pure_ok.mp h
  obtain ⟨r, hr, rfl⟩ := run_onComponent_ok.mp hreserve
  obtain ⟨hreserved, hscheduler⟩ := modifyFree_ok hfree
  refine ⟨rfl, hscheduler, ?_⟩
  intro a
  rw [← hreserved]
  exact Reserves.reserve_reserved hr a

theorem schedule_ok {call : ScheduledCall} {minDelay : ℕ} {out : List UInt8}
    (h : (schedule cfg call minDelay).run s = .ok out s') :
    ∃ taskId, Names cfg taskId call ∧
      (cfg.scheduler.pending s.scheduler).lookup taskId = none ∧
      cfg.scheduler.pending s'.scheduler
        = (cfg.scheduler.pending s.scheduler).insert taskId call ∧
      ∀ a, s'.balances.reserved a = s.balances.reserved a +
        if a = cfg.getAccountId call.sender then call.fee cfg else 0 := by
  obtain ⟨fee, s₁, hreserve, h⟩ := run_bind_ok.mp h
  obtain ⟨rfl, hscheduler, hreserved⟩ := reserveFee_ok hreserve
  rw [run_get_bind] at h
  obtain ⟨_, s₂, hensure, h⟩ := run_bind_ok.mp h
  obtain ⟨hid, rfl⟩ := run_ensure_ok.mp hensure
  obtain ⟨_, s₃, hnext, h⟩ := run_bind_ok.mp h
  obtain rfl := run_modify_ok.mp hnext
  obtain ⟨_, s₄, hnamed, h⟩ := run_bind_ok.mp h
  obtain ⟨-, rfl⟩ := run_pure_ok.mp h
  obtain ⟨hok, hbalances, -⟩ := onScheduler_ok hnamed
  dsimp only at hok hbalances
  obtain ⟨hnew, hinsert⟩ := cfg.scheduler.pending_scheduleNamed (eq_some_of_elim hok)
  rw [hscheduler] at hnew hinsert
  have hdecode := cfg.decode_encode _ call.sender _ (Nat.lt_of_succ_lt hid)
    (cfg.weightToFeeCalc_lt (min (cfg.gasToWeight call.gasLimit) cfg.maxBlock))
  refine ⟨_, ⟨_, hdecode, rfl, rfl⟩, hnew, hinsert, ?_⟩
  intro a
  rw [hbalances]
  exact hreserved a

omit [DecidableEq A] in
theorem taskInfo_ok {sender : EvmAddress} {taskId : List UInt8} {info : TaskInfo}
    (h : (taskInfo cfg sender taskId).run s = .ok info s') :
    cfg.decode taskId = some info ∧ info.sender = sender ∧ s = s' := by
  obtain ⟨_, s₁, hdecode, h⟩ := run_bind_ok.mp h
  obtain ⟨hsome, rfl⟩ := run_okOr_ok.mp hdecode
  obtain ⟨_, s₂, hensure, h⟩ := run_bind_ok.mp h
  obtain ⟨hsender, rfl⟩ := run_ensure_ok.mp hensure
  obtain ⟨rfl, rfl⟩ := run_pure_ok.mp h
  exact ⟨hsome, hsender, rfl⟩

/-- The task that is cancelled is pending, and its fee is released. -/
theorem cancel_ok {sender : EvmAddress} {taskId out : List UInt8}
    (h : (cancel cfg sender taskId).run s = .ok out s') :
    ∃ info call, cfg.decode taskId = some info ∧ info.sender = sender ∧
      (cfg.scheduler.pending s.scheduler).lookup taskId = some call ∧
      cfg.scheduler.pending s'.scheduler
        = (cfg.scheduler.pending s.scheduler).erase taskId ∧
      s'.balances = Reserves.unreserve (cfg.getAccountId sender) info.fee s.balances := by
  obtain ⟨info, s₁, hinfo, h⟩ := run_bind_ok.mp h
  obtain ⟨hdecode, hsender, rfl⟩ := taskInfo_ok hinfo
  obtain ⟨_, s₂, hcancel, h⟩ := run_bind_ok.mp h
  obtain ⟨hok, hbalances, -⟩ := onScheduler_ok hcancel
  obtain ⟨hpending, herase⟩ := cfg.scheduler.pending_cancelNamed (eq_some_of_elim hok)
  obtain ⟨call, hcall⟩ := Option.ne_none_iff_exists'.mp hpending
  obtain ⟨_, s₃, hunreserve, h⟩ := run_bind_ok.mp h
  obtain ⟨-, rfl⟩ := run_pure_ok.mp h
  obtain rfl := run_modify_ok.mp hunreserve
  refine ⟨info, call, hdecode, hsender, hcall, herase, ?_⟩
  rw [hbalances]

omit [DecidableEq A] in
theorem reschedule_ok {sender : EvmAddress} {minDelay : ℕ} {taskId out : List UInt8}
    (h : (reschedule cfg sender minDelay taskId).run s = .ok out s') :
    cfg.scheduler.pending s'.scheduler = cfg.scheduler.pending s.scheduler ∧
      s'.balances = s.balances := by
  obtain ⟨info, s₁, hinfo, h⟩ := run_bind_ok.mp h
  obtain ⟨-, -, rfl⟩ := taskInfo_ok hinfo
  obtain ⟨_, s₂, hreschedule, h⟩ := run_bind_ok.mp h
  obtain ⟨-, rfl⟩ := run_pure_ok.mp h
  obtain ⟨hok, hbalances, -⟩ := onScheduler_ok hreschedule
  refine ⟨?_, hbalances⟩
  cases hmoved : cfg.scheduler.rescheduleNamed taskId minDelay s.scheduler with
  | error message =>
      rw [hmoved] at hok
      cases hok
  | ok e =>
      rw [hmoved] at hok
      cases hok
      exact cfg.scheduler.pending_rescheduleNamed hmoved

/-! ## What contracts do -/

theorem Accounted.schedule (h : Accounted cfg s) {call : ScheduledCall} {minDelay : ℕ}
    {out : List UInt8} (hrun : (schedule cfg call minDelay).run s = .ok out s') :
    Accounted cfg s' := by
  obtain ⟨taskId, hnames, hnew, hinsert, hreserved⟩ := schedule_ok hrun
  constructor
  · intro taskId' call' hlookup
    rw [hinsert] at hlookup
    by_cases heq : taskId' = taskId
    · rw [heq, AList.lookup_insert] at hlookup
      cases hlookup
      rw [heq]
      exact hnames
    · rw [AList.lookup_insert_ne heq] at hlookup
      exact h.named taskId' call' hlookup
  · intro who
    rw [hreserved, h.reserved, pendingFees_insert hnew hinsert, hnames.feeAt]

theorem Accounted.cancel (h : Accounted cfg s) {sender : EvmAddress} {taskId out : List UInt8}
    (hrun : (cancel cfg sender taskId).run s = .ok out s') : Accounted cfg s' := by
  obtain ⟨info, call, hdecode, hsender, hcall, herase, hbalances⟩ := cancel_ok hrun
  obtain ⟨named, hnamed, hnamedSender, hfee⟩ := h.named taskId call hcall
  have hsame : named = info := by
    rw [hnamed] at hdecode
    exact Option.some.inj hdecode
  subst hsame
  apply h.release hcall herase rfl
  rw [hbalances, ← hfee, ← hnamedSender, hsender]

theorem Accounted.reschedule (h : Accounted cfg s) {sender : EvmAddress} {minDelay : ℕ}
    {taskId out : List UInt8}
    (hrun : (reschedule cfg sender minDelay taskId).run s = .ok out s') : Accounted cfg s' := by
  obtain ⟨hpending, hbalances⟩ := reschedule_ok hrun
  constructor
  · rw [hpending]
    exact h.named
  · intro who
    rw [hbalances, h.reserved]
    unfold pendingFees
    rw [hpending]

/-- **What contracts do keeps the books.** -/
theorem Accounted.perform (h : Accounted cfg s) (act : Act A) :
    Accounted cfg (perform cfg s act) := by
  cases act with
  | free f => exact h.of_same ⟨rfl, rfl⟩
  | precompile action =>
      apply commit_transactional_invariant (P := Accounted cfg) h
      intro out s' hrun
      cases action with
      | Schedule sender target value gasLimit storageLimit minDelay inputData =>
          exact h.schedule hrun
      | Cancel sender taskId => exact h.cancel hrun
      | Reschedule sender minDelay taskId => exact h.reschedule hrun

theorem Accounted.perform_all (h : Accounted cfg s) (acts : List (Act A)) :
    Accounted cfg (acts.foldl (ScheduleCall.perform cfg) s) := by
  induction acts generalizing s with
  | nil => exact h
  | cons act acts ih => exact ih (h.perform act)

/-! ## A call that is due -/

/-- The account can pay the fee once it is released. -/
def charged (cfg : Config A E) (s : State A E) (call : ScheduledCall) : Bool :=
  let who := cfg.getAccountId call.sender
  canWithdraw cfg (Reserves.unreserve who (call.fee cfg) s.balances) who (call.fee cfg)

theorem unreserveAndChargeFee_ok {who : A} {weight fee : ℕ}
    (h : (unreserveAndChargeFee cfg who weight).run s = .ok fee s') :
    canWithdraw cfg (Reserves.unreserve who (weightToFee cfg weight) s.balances) who
        (weightToFee cfg weight) = true ∧
      s'.scheduler = s.scheduler ∧ s'.balances.reserved
        = (Reserves.unreserve who (weightToFee cfg weight) s.balances).reserved := by
  obtain ⟨_, s₁, hunreserve, h⟩ := run_bind_ok.mp h
  obtain rfl := run_modify_ok.mp hunreserve
  rw [run_get_bind] at h
  obtain ⟨_, s₂, hensure, h⟩ := run_bind_ok.mp h
  obtain ⟨hcan, rfl⟩ := run_ensure_ok.mp hensure
  obtain ⟨_, s₃, hfree, h⟩ := run_bind_ok.mp h
  obtain ⟨-, rfl⟩ := run_pure_ok.mp h
  obtain ⟨hreserved, hscheduler⟩ := modifyFree_ok hfree
  exact ⟨hcan, hscheduler, hreserved⟩

theorem unreserveAndChargeFee_error {who : A} {weight : ℕ} {error : Error}
    (h : (unreserveAndChargeFee cfg who weight).run s = .error error s') :
    canWithdraw cfg (Reserves.unreserve who (weightToFee cfg weight) s.balances) who
        (weightToFee cfg weight) = false := by
  obtain h | ⟨_, s₁, hunreserve, h⟩ := run_bind_error.mp h
  · exact (run_modify_error.mp h).elim
  · obtain rfl := run_modify_ok.mp hunreserve
    rw [run_get_bind] at h
    obtain h | ⟨_, s₂, -, h⟩ := run_bind_error.mp h
    · exact Bool.eq_false_iff.mpr (run_ensure_error.mp h).1
    · obtain h | ⟨_, s₃, -, h⟩ := run_bind_error.mp h
      · exact (run_modify_error.mp h).elim
      · exact (run_pure_error.mp h).elim

theorem refundFee_ok {who : A} {refundWeight payed : ℕ} :
    SameBooks s (commit (ignore (refundFee cfg who refundWeight payed)) s) := by
  have hfree : ∀ f : (A → ℕ) → A → ℕ, ∀ t, SameBooks s t →
      SameBooks s (commit (modifyFree f) t) := fun f t ht => ht
  have hpreserves : Preserves (SameBooks s) (refundFee cfg who refundWeight payed) := by
    apply preserves_get_bind
    intro t ht
    split
    · apply preserves_bind
      · exact hfree _
      · intro _
        apply preserves_bind
        · exact preserves_ensure
        · intro _
          exact hfree _
    · exact hfree _
  exact preserves_ignore hpreserves s ⟨rfl, rfl⟩

/-- The runner keeps the books. -/
theorem Accounted.runnerCall (h : Accounted cfg s) {outcome : Outcome A} {usedGas : ℕ}
    (hrun : (runnerCall cfg outcome).run s = .ok usedGas s') :
    outcome.isDispatchError = false ∧ Accounted cfg s' := by
  cases outcome with
  | dispatchError => exact (run_throw_ok.mp hrun).elim
  | reverted used =>
      obtain ⟨-, rfl⟩ := run_pure_ok.mp hrun
      exact ⟨rfl, h⟩
  | succeeded used acts =>
      obtain ⟨_, s₁, hacts, hrun⟩ := run_bind_ok.mp hrun
      obtain ⟨-, rfl⟩ := run_pure_ok.mp hrun
      obtain rfl := run_modify_ok.mp hacts
      exact ⟨rfl, h.perform_all acts⟩

theorem runnerCall_error {outcome : Outcome A} {error : Error}
    (h : (runnerCall cfg outcome).run s = .error error s') : outcome.isDispatchError = true := by
  cases outcome with
  | dispatchError => rfl
  | reverted used => exact (run_pure_error.mp h).elim
  | succeeded used acts =>
      obtain h | ⟨_, s₁, -, h⟩ := run_bind_error.mp h
      · exact (run_modify_error.mp h).elim
      · exact (run_pure_error.mp h).elim

theorem scheduledCall_error {call : ScheduledCall} {outcome : Outcome A} {error : Error}
    (h : (scheduledCall cfg call outcome).run s = .error error s') :
    s = s' ∧ ¬ (charged cfg s call = true ∧ outcome.isDispatchError = false) := by
  obtain ⟨rfl, t, h⟩ := run_transactional_error.mp h
  refine ⟨rfl, ?_⟩
  rintro ⟨hcharged, houtcome⟩
  obtain h | ⟨payed, s₁, -, h⟩ := run_bind_error.mp h
  · obtain ⟨_, h, -⟩ := run_wrapError_error.mp h
    have huncharged : charged cfg s call = false := unreserveAndChargeFee_error h
    rw [hcharged] at huncharged
    cases huncharged
  · obtain h | ⟨usedGas, s₂, -, h⟩ := run_bind_error.mp h
    · rw [runnerCall_error h] at houtcome
      cases houtcome
    · exact run_ignore_error.mp (run_when_error.mp h).2

/-- A call that is dispatched without an error releases the fee of its task. -/
theorem Accounted.scheduledCall {taskId : List UInt8} {call : ScheduledCall} {e : E}
    {outcome : Outcome A} {u : Unit} (h : Accounted cfg s)
    (hold : (cfg.scheduler.pending s.scheduler).lookup taskId = some call)
    (herase : cfg.scheduler.pending e = (cfg.scheduler.pending s.scheduler).erase taskId)
    (hrun : (scheduledCall cfg call outcome).run { s with scheduler := e } = .ok u s') :
    charged cfg s call = true ∧ outcome.isDispatchError = false ∧ Accounted cfg s' := by
  obtain ⟨payed, s₁, hcharge, hrun⟩ := run_bind_ok.mp (run_transactional_ok.mp hrun)
  obtain ⟨hcan, hscheduler, hreserved⟩ := unreserveAndChargeFee_ok (run_wrapError_ok.mp hcharge)
  have hcharged : Accounted cfg s₁ := h.release hold herase hscheduler hreserved
  obtain ⟨usedGas, s₂, hcall, hrun⟩ := run_bind_ok.mp hrun
  obtain ⟨herror, hafter⟩ := hcharged.runnerCall hcall
  refine ⟨hcan, herror, ?_⟩
  obtain ⟨-, hrefund⟩ | ⟨-, rfl⟩ := run_when_ok.mp hrun
  · rw [← run_ignore_ok.mp hrefund]
    exact hafter.of_same refundFee_ok
  · exact hafter

/-! ## Runs -/

/-- A call that is dispatched has no fee, or its fee is charged and the runner returns no dispatch
error. -/
def Charged (cfg : Config A E) (s : State A E) : Step A → Prop
  | .act _ => True
  | .dispatch name outcome => ∀ call e, cfg.scheduler.takeDue name s.scheduler = some (call, e) →
      call.fee cfg = 0 ∨ (charged cfg s call = true ∧ outcome.isDispatchError = false)
  | .nextBlock => True

theorem step_of_taken {name : List UInt8} {call : ScheduledCall} {e : E}
    (h : cfg.scheduler.takeDue name s.scheduler = some (call, e)) (outcome : Outcome A) :
    step cfg s (.dispatch name outcome)
      = commit (scheduledCall cfg call outcome) { s with scheduler := e } := by
  rw [step, h]

theorem step_of_none {name : List UInt8} (h : cfg.scheduler.takeDue name s.scheduler = none)
    (outcome : Outcome A) : step cfg s (.dispatch name outcome) = s := by
  rw [step, h]

theorem dispatch_cases (h : Accounted cfg s) {name : List UInt8} (outcome : Outcome A)
    {call : ScheduledCall} {e : E}
    (htake : cfg.scheduler.takeDue name s.scheduler = some (call, e)) :
    (Accounted cfg (step cfg s (.dispatch name outcome)) ∧ charged cfg s call = true ∧
        outcome.isDispatchError = false) ∨
      (step cfg s (.dispatch name outcome) = { s with scheduler := e } ∧
        ¬ (charged cfg s call = true ∧ outcome.isDispatchError = false)) := by
  obtain ⟨hold, herase⟩ := cfg.scheduler.pending_takeDue htake
  rw [step_of_taken htake]
  cases hrun : (scheduledCall cfg call outcome).run { s with scheduler := e } with
  | ok u s' =>
      obtain ⟨hcharged, houtcome, hafter⟩ := h.scheduledCall hold herase hrun
      rw [commit_of_ok hrun]
      exact .inl ⟨hafter, hcharged, houtcome⟩
  | error error s' =>
      obtain ⟨rfl, hfails⟩ := scheduledCall_error hrun
      rw [commit_of_error hrun]
      exact .inr ⟨rfl, hfails⟩

/-- A task that is gone, but not its fee, can only have had none. -/
theorem Accounted.lost_iff {taskId : List UInt8} {call : ScheduledCall} {e : E}
    (h : Accounted cfg s)
    (hold : (cfg.scheduler.pending s.scheduler).lookup taskId = some call)
    (herase : cfg.scheduler.pending e = (cfg.scheduler.pending s.scheduler).erase taskId) :
    (∀ who, s.balances.reserved who = pendingFees cfg who e) ↔ call.fee cfg = 0 := by
  have hfee := (h.named taskId call hold).feeAt
  constructor
  · intro hall
    have hpaid := hall (cfg.getAccountId call.sender)
    have hbefore := h.reserved (cfg.getAccountId call.sender)
    have hgone := pendingFees_erase hold herase (cfg.getAccountId call.sender)
    rw [hfee, if_pos rfl] at hgone
    omega
  · intro hzero who
    have hgone := pendingFees_erase hold herase who
    rw [hfee, hzero, ite_self] at hgone
    rw [h.reserved who]
    omega

theorem Accounted.lost {taskId : List UInt8} {call : ScheduledCall} {e : E}
    (h : Accounted cfg s)
    (hold : (cfg.scheduler.pending s.scheduler).lookup taskId = some call)
    (herase : cfg.scheduler.pending e = (cfg.scheduler.pending s.scheduler).erase taskId)
    (hzero : call.fee cfg = 0) : Accounted cfg { s with scheduler := e } := by
  apply h.release hold herase rfl
  funext who
  rw [Reserves.unreserve_reserved_sub, hzero, ite_self]
  rfl

theorem Accounted.nextBlock (h : Accounted cfg s) : Accounted cfg (step cfg s .nextBlock) := by
  constructor
  · intro taskId call hlookup
    apply h.named taskId call
    rw [← cfg.scheduler.pending_nextBlock]
    exact hlookup
  · intro who
    have hpending : pendingFees cfg who (cfg.scheduler.nextBlock s.scheduler)
        = pendingFees cfg who s.scheduler := by
      unfold pendingFees
      rw [cfg.scheduler.pending_nextBlock]
    exact (h.reserved who).trans hpending.symm

/-- A step whose call is charged keeps the books. -/
theorem Accounted.step (h : Accounted cfg s) (l : Step A) (hl : Charged cfg s l) :
    Accounted cfg (step cfg s l) := by
  cases l with
  | act a => exact h.perform a
  | nextBlock => exact h.nextBlock
  | dispatch name outcome =>
      cases htake : cfg.scheduler.takeDue name s.scheduler with
      | none =>
          rw [step_of_none htake]
          exact h
      | some taken =>
          obtain ⟨call, e⟩ := taken
          obtain ⟨hafter, -⟩ | ⟨hlost, hfails⟩ := dispatch_cases h outcome htake
          · exact hafter
          · obtain ⟨hold, herase⟩ := cfg.scheduler.pending_takeDue htake
            rw [hlost]
            exact h.lost hold herase ((hl call e htake).resolve_right hfails)

/-- **When one step keeps the books.** -/
theorem accounted_step_iff (h : Accounted cfg s) (l : Step A) :
    (∀ who, (step cfg s l).balances.reserved who
        = pendingFees cfg who (step cfg s l).scheduler) ↔ Charged cfg s l := by
  constructor
  · intro hall
    cases l with
    | act a => trivial
    | nextBlock => trivial
    | dispatch name outcome =>
        intro call e htake
        obtain ⟨-, hcharged⟩ | ⟨hlost, -⟩ := dispatch_cases h outcome htake
        · exact .inr hcharged
        · obtain ⟨hold, herase⟩ := cfg.scheduler.pending_takeDue htake
          rw [hlost] at hall
          exact .inl ((h.lost_iff hold herase).mp hall)
  · intro hl
    exact (h.step l hl).reserved

/-- **The fees of scheduled calls.** From a state without tasks, what accounts have reserved are
the fees of their pending tasks all along a run exactly if every call that is dispatched with a fee
is charged and returns no dispatch error. -/
theorem fees_iff (hpending : cfg.scheduler.pending s.scheduler = ∅)
    (hreserved : ∀ who, s.balances.reserved who = 0) (steps : List (Step A)) :
    (∀ n who, (Machine.run (step cfg) s (steps.take n)).balances.reserved who
        = pendingFees cfg who (Machine.run (step cfg) s (steps.take n)).scheduler) ↔
      Machine.StepsMeet (step cfg) (Charged cfg) s steps := by
  have hstart : Accounted cfg s := by
    constructor
    · intro taskId call hlookup
      rw [hpending] at hlookup
      cases hlookup
    · intro who
      unfold pendingFees
      rw [hreserved, hpending, sumBy_empty]
  exact Machine.run_holds_iff (I := Accounted cfg)
    (P := fun s => ∀ who, s.balances.reserved who = pendingFees cfg who s.scheduler)
    (fun s l hs hl => hs.step l hl) (fun s hs => hs.reserved)
    (fun s l hs => accounted_step_iff hs l) hstart steps

/-! ## A call that is never paid back -/

section Sample

/-- A scheduler with the blocks that calls are due in. -/
structure SampleScheduler where
  pending : Map (List UInt8) ScheduledCall
  due : Map (List UInt8) ℕ
  now : ℕ

def sampleScheduler : ScheduleNamed SampleScheduler where
  pending := SampleScheduler.pending
  scheduleNamed name delay call e :=
    if e.pending.lookup name = none then
      some ⟨e.pending.insert name call, e.due.insert name (e.now + delay + 1), e.now⟩
    else none
  cancelNamed name e :=
    if e.pending.lookup name = none then none
    else some ⟨e.pending.erase name, e.due.erase name, e.now⟩
  rescheduleNamed name delay e :=
    if e.due.lookup name = some (e.now + delay + 1) then .error "RescheduleNoChange"
    else .ok { e with due := e.due.insert name (e.now + delay + 1) }
  takeDue name e :=
    match e.pending.lookup name with
    | some call =>
        if (e.due.lookup name).getD 0 ≤ e.now then
          some (call, ⟨e.pending.erase name, e.due.erase name, e.now⟩)
        else none
    | none => none
  nextBlock e := { e with now := e.now + 1 }
  pending_scheduleNamed := by
    intro name delay call e e' h
    split at h
    · rename_i hnew
      cases h
      exact ⟨hnew, rfl⟩
    · cases h
  pending_cancelNamed := by
    intro name e e' h
    split at h
    · cases h
    · rename_i hold
      cases h
      exact ⟨hold, rfl⟩
  pending_rescheduleNamed := by
    intro name delay e e' h
    split at h
    · cases h
    · cases h
      rfl
  pending_takeDue := by
    intro name call e e' h
    split at h
    · rename_i hold
      split at h
      · cases h
        exact ⟨hold, rfl⟩
      · cases h
    · cases h
  pending_nextBlock _ := rfl

/-- The compact encoding of a fee in the range of the samples. A larger one takes 16 bytes. -/
def sampleEncodeFee (fee : ℕ) : List UInt8 :=
  if fee < 2 ^ 30 then (BigEndian.toBytes 4 (4 * fee + 2)).reverse
  else 0x33 :: (BigEndian.toBytes 16 fee).reverse

def sampleDecodeFee (bytes : List UInt8) : ℕ :=
  if bytes.length = 4 then BigEndian.ofBytes bytes.reverse / 4
  else BigEndian.ofBytes bytes.tail.reverse

theorem sampleDecodeFee_encode {fee : ℕ} (h : fee < 2 ^ 128) :
    sampleDecodeFee (sampleEncodeFee fee) = fee := by
  unfold sampleEncodeFee sampleDecodeFee
  split
  · rename_i hfee
    rw [if_pos (by simp), List.reverse_reverse, BigEndian.ofBytes_toBytes]
    omega
  · rw [if_neg (by simp), List.tail_cons, List.reverse_reverse, BigEndian.ofBytes_toBytes]
    omega

/-- The length of the prefix, the prefix, and the other fields. -/
def sampleEncode (info : TaskInfo) : List UInt8 :=
  (0x30 :: info.taskPrefix) ++ ((BigEndian.toBytes 4 info.id).reverse ++
    (BigEndian.toBytes 20 info.sender.toNat ++ sampleEncodeFee info.fee))

def sampleDecode (bytes : List UInt8) : Option TaskInfo :=
  if bytes.take 13 = 0x30 :: scheduleCallPrefix then
    let fields := bytes.drop 13
    let rest := fields.drop 4
    some
      { taskPrefix := scheduleCallPrefix
        id := BigEndian.ofBytes (fields.take 4).reverse
        sender := BitVec.ofNat 160 (BigEndian.ofBytes (rest.take 20))
        fee := sampleDecodeFee (rest.drop 20) }
  else none

theorem sampleDecode_encode (id : ℕ) (sender : EvmAddress) (fee : ℕ) (hid : id < 2 ^ 32)
    (hfee : fee < 2 ^ 128) :
    sampleDecode (sampleEncode ⟨scheduleCallPrefix, id, sender, fee⟩)
      = some ⟨scheduleCallPrefix, id, sender, fee⟩ := by
  have hlength : (0x30 :: scheduleCallPrefix).length = 13 := rfl
  have hidLength : (BigEndian.toBytes 4 id).reverse.length = 4 := by simp
  have hsenderLength := BigEndian.length_toBytes 20 sender.toNat
  have hidBytes : BigEndian.ofBytes (BigEndian.toBytes 4 id) = id := by
    rw [BigEndian.ofBytes_toBytes]
    omega
  have hsenderBytes :
      BitVec.ofNat 160 (BigEndian.ofBytes (BigEndian.toBytes 20 sender.toNat)) = sender := by
    apply BitVec.eq_of_toNat_eq
    have hlt := sender.isLt
    rw [BigEndian.ofBytes_toBytes, BitVec.toNat_ofNat]
    omega
  unfold sampleDecode sampleEncode
  rw [List.take_left' hlength, if_pos rfl, List.drop_left' hlength]
  dsimp only
  rw [List.take_left' hidLength, List.drop_left' hidLength, List.take_left' hsenderLength,
    List.drop_left' hsenderLength, List.reverse_reverse, hidBytes, hsenderBytes,
    sampleDecodeFee_encode hfee]

/-- Fees are the gas, and no currency needs to be swapped for them. -/
def sampleConfig : Config ℕ SampleScheduler where
  getAccountId address := address.toNat
  gasToWeight gas := gas
  weightToFeeCalc weight := weight % 2 ^ 128
  weightToFeeCalc_lt _ := Nat.mod_lt _ (by decide)
  maxBlock := 10 ^ 12
  rules := Reserves.Rules.permissive
  withdrawAllowed _ _ _ := true
  depositAllowed _ _ := true
  ensureCanChargeFee _ _ free := free
  onTransactionPayment _ free := free
  scheduler := sampleScheduler
  encode := sampleEncode
  decode := sampleDecode
  decode_encode := sampleDecode_encode

def sampleState : State ℕ SampleScheduler where
  balances := ⟨fun _ => 1000000, fun _ => 0⟩
  nextId := 0
  scheduler := ⟨∅, ∅, 0⟩

/-- The first task of the address 1. -/
def sampleTask : List UInt8 := sampleEncode ⟨scheduleCallPrefix, 0, 1, 300000⟩

def sampleSchedule : Step ℕ := .act (.precompile (.Schedule 1 2 0 300000 100 1 []))

/-- A call that is charged, and one that is scheduled by it and cancelled. -/
def sampleSteps : List (Step ℕ) :=
  [sampleSchedule, .nextBlock, .act (.precompile (.Reschedule 1 2 sampleTask)), .nextBlock,
    .nextBlock, .nextBlock,
    .dispatch sampleTask (.succeeded 21000 [.precompile (.Schedule 1 2 0 300000 100 1 [])]),
    .act (.precompile (.Cancel 1 (sampleEncode ⟨scheduleCallPrefix, 1, 1, 300000⟩)))]

theorem fees_iff_sample :
    (∀ n who, (Machine.run (step sampleConfig) sampleState (sampleSteps.take n)).balances.reserved
        who = pendingFees sampleConfig who
          (Machine.run (step sampleConfig) sampleState (sampleSteps.take n)).scheduler) ↔
      Machine.StepsMeet (step sampleConfig) (Charged sampleConfig) sampleState sampleSteps :=
  fees_iff rfl (fun _ => rfl) sampleSteps

/-- **The fee of a call that ends in a dispatch error stays reserved.** -/
theorem fee_of_failed_call :
    let s := Machine.run (step sampleConfig) sampleState
      [sampleSchedule, .nextBlock, .nextBlock, .dispatch sampleTask .dispatchError]
    s.balances.reserved 1 = 300000 ∧ pendingFees sampleConfig 1 s.scheduler = 0 ∧
      s.scheduler.pending.lookup sampleTask = none := by
  decide +kernel

end Sample

end Setheum.ScheduleCall
