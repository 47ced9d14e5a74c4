import Setheum.Lib.BigEndian
import Setheum.Lib.Dispatch
import Setheum.Lib.Reserves
import Setheum.Lib.StorageMap
import Setheum.Primitives.Currency

/-!
# Scheduled contract calls

A contract can schedule a call for a later block through a precompile. The fee for the whole gas
limit is reserved at once. It is released when the call is cancelled; when the call is due it is
released and charged, and what the call left of its gas is refunded.

The scheduler is a parameter, `ScheduleNamed`: it keeps calls under names and hands each one out
once. The encoding of task identifiers and the rules of the native currency are parameters too.
What else a call does to free balances is any function of them, as nothing else is reserved here.
-/

set_option autoImplicit false

namespace Setheum.ScheduleCall

open StorageMap Dispatch

structure TaskInfo where
  taskPrefix : List UInt8
  id : ℕ
  sender : EvmAddress
  fee : ℕ
  deriving DecidableEq, Repr

/-- A call of `scheduled_call`. The address that the call is from is its `sender`. -/
structure ScheduledCall where
  sender : EvmAddress
  target : EvmAddress
  input : List UInt8
  value : ℕ
  gasLimit : ℕ
  storageLimit : ℕ
  deriving DecidableEq, Repr

/-- A scheduler of calls under names. A call that was cancelled or handed out is not pending. -/
structure ScheduleNamed (E : Type) where
  pending : E → Map (List UInt8) ScheduledCall
  scheduleNamed : List UInt8 → ℕ → ScheduledCall → E → Option E
  cancelNamed : List UInt8 → E → Option E
  /-- A failure has a message. -/
  rescheduleNamed : List UInt8 → ℕ → E → Except String E
  /-- Hand out the call of this name, if it is due. -/
  takeDue : List UInt8 → E → Option (ScheduledCall × E)
  nextBlock : E → E
  pending_scheduleNamed : ∀ {name delay call e e'}, scheduleNamed name delay call e = some e' →
    (pending e).lookup name = none ∧ pending e' = (pending e).insert name call
  pending_cancelNamed : ∀ {name e e'}, cancelNamed name e = some e' →
    (pending e).lookup name ≠ none ∧ pending e' = (pending e).erase name
  pending_rescheduleNamed : ∀ {name delay e e'}, rescheduleNamed name delay e = .ok e' →
    pending e' = pending e
  pending_takeDue : ∀ {name call e e'}, takeDue name e = some (call, e') →
    (pending e).lookup name = some call ∧ pending e' = (pending e).erase name
  pending_nextBlock : ∀ e, pending (nextBlock e) = pending e

/-- The bytes `ScheduleCall`. -/
def scheduleCallPrefix : List UInt8 :=
  [0x53, 0x63, 0x68, 0x65, 0x64, 0x75, 0x6c, 0x65, 0x43, 0x61, 0x6c, 0x6c]

structure Config (A E : Type) where
  getAccountId : EvmAddress → A
  gasToWeight : ℕ → ℕ
  /-- `WeightToFee::calc`. -/
  weightToFeeCalc : ℕ → ℕ
  weightToFeeCalc_lt : ∀ weight, weightToFeeCalc weight < 2 ^ 128
  /-- The maximum weight of a block. -/
  maxBlock : ℕ
  rules : Reserves.Rules A
  withdrawAllowed : Reserves A → A → ℕ → Bool
  /-- Whether there is an account to deposit into. -/
  depositAllowed : Reserves A → A → Bool
  /-- Swap other currencies of an account for enough of the native one. -/
  ensureCanChargeFee : A → ℕ → (A → ℕ) → A → ℕ
  /-- Distribute a fee. -/
  onTransactionPayment : ℕ → (A → ℕ) → A → ℕ
  scheduler : ScheduleNamed E
  encode : TaskInfo → List UInt8
  decode : List UInt8 → Option TaskInfo
  decode_encode : ∀ id sender fee, id < 2 ^ 32 → fee < 2 ^ 128 →
    decode (encode ⟨scheduleCallPrefix, id, sender, fee⟩)
      = some ⟨scheduleCallPrefix, id, sender, fee⟩

structure State (A E : Type) where
  balances : Reserves A
  /-- `EvmSchedulerNextID`. -/
  nextId : ℕ
  scheduler : E

inductive Error
  | other (message : String)
  | reserve (e : Reserves.Error)
  | Payment
  | ChargeFeeFailed
  /-- The runner of contracts fails. -/
  | runner
  deriving DecidableEq, Repr

abbrev ScheduleM (A E : Type) := Dispatch Error (State A E)

variable {A E : Type} [DecidableEq A] (cfg : Config A E)

/-! ## Fees -/

def weightToFee (weight : ℕ) : ℕ := cfg.weightToFeeCalc (min weight cfg.maxBlock)

def modifyFree {A E : Type} (f : (A → ℕ) → A → ℕ) : ScheduleM A E Unit :=
  modify fun s => { s with balances := { s.balances with free := f s.balances.free } }

def reserveFee (who : A) (weight : ℕ) : ScheduleM A E ℕ := do
  let fee := weightToFee cfg weight
  modifyFree (cfg.ensureCanChargeFee who fee)
  onComponent State.balances (fun r s => { s with balances := r }) .reserve
    (Reserves.reserve cfg.rules who fee)
  pure fee

def unreserveFee {E : Type} (who : A) (fee : ℕ) : ScheduleM A E Unit :=
  modify fun s => { s with balances := Reserves.unreserve who fee s.balances }

/-- Whether an account can pay a fee out of its free balance. -/
def canWithdraw (r : Reserves A) (who : A) (fee : ℕ) : Bool :=
  fee ≤ r.free who && cfg.withdrawAllowed r who fee

/-- What is withdrawn is returned. -/
def unreserveAndChargeFee (who : A) (weight : ℕ) : ScheduleM A E ℕ := do
  let fee := weightToFee cfg weight
  unreserveFee who fee
  let s ← get
  ensure (canWithdraw cfg s.balances who fee = true) .Payment
  modifyFree fun free a => if a = who then free a - fee else free a
  pure fee

/-- Refund a part of what was paid, and distribute the rest of it. An account that is gone is not
created again. -/
def refundFee (who : A) (refundWeight payed : ℕ) : ScheduleM A E Unit := do
  let refund := weightToFee cfg refundWeight
  let s ← get
  if cfg.depositAllowed s.balances who then
    modifyFree fun free a => if a = who then free a + refund else free a
    ensure (refund ≤ payed) .Payment
    modifyFree (cfg.onTransactionPayment (payed - refund))
  else modifyFree (cfg.onTransactionPayment payed)

/-! ## The precompile -/

/-- The actions with the parameters that are read from the input. -/
inductive Action
  | Schedule (sender target : EvmAddress) (value gasLimit storageLimit minDelay : ℕ)
      (inputData : List UInt8)
  | Cancel (sender : EvmAddress) (taskId : List UInt8)
  | Reschedule (sender : EvmAddress) (minDelay : ℕ) (taskId : List UInt8)

/-- The task identifier after its length, in 96 bytes. -/
def withLen (taskId : List UInt8) : List UInt8 :=
  BigEndian.toBytes 32 taskId.length ++ taskId ++ List.replicate (64 - taskId.length) 0

/-- The information in a task identifier, which must be of a task of this sender. -/
def taskInfo {A E : Type} (cfg : Config A E) (sender : EvmAddress) (taskId : List UInt8) :
    ScheduleM A E TaskInfo := do
  let info ← okOr (cfg.decode taskId) (.other "Decode task_id failed")
  ensure (info.sender = sender) (.other "NoPermission")
  pure info

def onScheduler {A E : Type} (f : E → Except Error E) : ScheduleM A E Unit :=
  onComponent State.scheduler (fun e s => { s with scheduler := e }) id f

def schedule (call : ScheduledCall) (minDelay : ℕ) : ScheduleM A E (List UInt8) := do
  let fee ← reserveFee cfg (cfg.getAccountId call.sender) (cfg.gasToWeight call.gasLimit)
  let s ← get
  ensure (s.nextId + 1 < 2 ^ 32) (.other "Scheduler next id overflow")
  modify fun s => { s with nextId := s.nextId + 1 }
  let taskId := cfg.encode ⟨scheduleCallPrefix, s.nextId, call.sender, fee⟩
  onScheduler fun e =>
    (cfg.scheduler.scheduleNamed taskId minDelay call e).elim
      (.error (.other "Schedule failed")) .ok
  pure (withLen taskId)

def cancel (sender : EvmAddress) (taskId : List UInt8) : ScheduleM A E (List UInt8) := do
  let info ← taskInfo cfg sender taskId
  onScheduler fun e =>
    (cfg.scheduler.cancelNamed taskId e).elim (.error (.other "Cancel schedule failed")) .ok
  unreserveFee (cfg.getAccountId sender) info.fee
  pure []

def reschedule {A E : Type} (cfg : Config A E) (sender : EvmAddress) (minDelay : ℕ)
    (taskId : List UInt8) : ScheduleM A E (List UInt8) := do
  let _ ← taskInfo cfg sender taskId
  onScheduler fun e => (cfg.scheduler.rescheduleNamed taskId minDelay e).mapError .other
  pure []

def execute : Action → ScheduleM A E (List UInt8)
  | .Schedule sender target value gasLimit storageLimit minDelay inputData =>
      schedule cfg ⟨sender, target, inputData, value, gasLimit, storageLimit⟩ minDelay
  | .Cancel sender taskId => cancel cfg sender taskId
  | .Reschedule sender minDelay taskId => reschedule cfg sender minDelay taskId

/-! ## Calls that are due -/

/-- What a contract does. -/
inductive Act (A : Type)
  | precompile (action : Action)
  /-- All that changes free balances. -/
  | free (f : (A → ℕ) → A → ℕ)

/-- The frame of a precompile that fails is rolled back. -/
def perform (s : State A E) : Act A → State A E
  | .precompile action => commit (transactional (execute cfg action)) s
  | .free f => commit (modifyFree f) s

/-- How the runner ends a call, and what the call did that stands. -/
inductive Outcome (A : Type)
  | dispatchError
  | reverted (usedGas : ℕ)
  | succeeded (usedGas : ℕ) (acts : List (Act A))

def Outcome.isDispatchError : Outcome A → Bool
  | .dispatchError => true
  | .reverted _ => false
  | .succeeded _ _ => false

/-- `Runner::call`; the gas used. -/
def runnerCall : Outcome A → ScheduleM A E ℕ
  | .dispatchError => throw .runner
  | .reverted usedGas => pure usedGas
  | .succeeded usedGas acts => do
      modify fun s => acts.foldl (perform cfg) s
      pure usedGas

def scheduledCall (call : ScheduledCall) (outcome : Outcome A) : ScheduleM A E Unit :=
  transactional do
    let fromAccount := cfg.getAccountId call.sender
    let payed ← wrapError (fun _ => .ChargeFeeFailed)
      (unreserveAndChargeFee cfg fromAccount (cfg.gasToWeight call.gasLimit))
    let usedGas ← runnerCall cfg outcome
    let refundGas := call.gasLimit - usedGas
    when (refundGas ≠ 0)
      (ignore (refundFee cfg fromAccount (cfg.gasToWeight refundGas) payed))

/-! ## Runs -/

inductive Step (A : Type)
  | act (a : Act A)
  /-- The scheduler dispatches the call of this name, if it is due. -/
  | dispatch (name : List UInt8) (outcome : Outcome A)
  | nextBlock

def step (s : State A E) : Step A → State A E
  | .act a => perform cfg s a
  | .dispatch name outcome =>
      match cfg.scheduler.takeDue name s.scheduler with
      | some (call, e) => commit (scheduledCall cfg call outcome) { s with scheduler := e }
      | none => s
  | .nextBlock => { s with scheduler := cfg.scheduler.nextBlock s.scheduler }

end Setheum.ScheduleCall
