import Setheum.Evm.Precompiles

/-!
# Frames and transactions of the EVM

A transaction runs code in a frame. The code works through a handler, which enters frames below
for the calls and creations that the code makes, and takes back what a frame did when it does not
succeed. `Runner` enters the outermost frame, `Handler` the frames below.

What runs the code of a frame is a parameter of every function here, an `Interpreter`. Gas is
left out: a frame that runs out of gas is one whose code does not succeed.
-/

set_option autoImplicit false

namespace Setheum.Evm

open Dispatch

inductive ExitReason
  | succeed
  | revert
  | error
  | fatal
  deriving DecidableEq, Repr

/-- How the code of a frame ended. -/
structure Outcome (A N : Type) where
  reason : ExitReason
  output : Code
  frame : Frame A
  world : World A N

/-- `execute`: run the code of a frame. -/
abbrev Interpreter (A N : Type) := Frame A → World A N → Outcome A N

/-- What a frame leaves to the transaction around it, which commits it or rolls it back. -/
structure TransactionOutcome (A N R : Type) where
  result : R
  commits : Bool
  frame : Frame A
  world : World A N

structure CallInfo where
  exitReason : ExitReason
  output : Code
  deriving DecidableEq, Repr

structure CreateInfo where
  exitReason : ExitReason
  address : EvmAddress
  output : Code
  deriving DecidableEq, Repr

variable {A N R : Type} [DecidableEq A] (p : Params A N)

/-! ## Finishing a frame -/

/-- Finish the meter of a frame that commits, inside the given frames. -/
def settle (origin : EvmAddress) (outer : List (Frame A)) (f : Frame A) (w : World A N) :
    List (Frame A) × Except Error (World A N) :=
  match f.meter.finish p.toConfig origin outer w.toChain with
  | (outer', .ok s) => (outer', .ok (w.moved p s))
  | (outer', .error e) => (outer', .error (.finish e))

def runTransaction (origin contract : EvmAddress) (isStatic creates : Bool) (storageLimit : ℕ)
    (body : Frame A → World A N → TransactionOutcome A N R) : Dispatch Error (World A N) R :=
  fun w =>
    match reserveStorage p.toConfig origin storageLimit w.toChain with
    | .error e => .error (.currency e) w
    | .ok s =>
        let t := body ⟨.new contract storageLimit, isStatic, creates, w.toChain⟩ (w.withChain s)
        if t.commits then
          match (settle p origin [] t.frame t.world).2 with
          | .ok w' => .ok t.result w'
          | .error e => .error e w
        else .ok t.result w

theorem runTransaction_cases (origin contract : EvmAddress) (isStatic creates : Bool) (limit : ℕ)
    (body : Frame A → World A N → TransactionOutcome A N R) (w : World A N) :
    let result := (runTransaction p origin contract isStatic creates limit body).run w
    (∃ e, reserveStorage p.toConfig origin limit w.toChain = .error e ∧
      result = .error (.currency e) w) ∨
    ∃ s t, reserveStorage p.toConfig origin limit w.toChain = .ok s ∧
      t = body ⟨.new contract limit, isStatic, creates, w.toChain⟩ (w.withChain s) ∧
      ((t.commits = false ∧ result = .ok t.result w) ∨
        (t.commits = true ∧ ∃ w', (settle p origin [] t.frame t.world).2 = .ok w' ∧
          result = .ok t.result w') ∨
        (t.commits = true ∧ ∃ e, (settle p origin [] t.frame t.world).2 = .error e ∧
          result = .error e w)) := by
  intro result
  cases hreserve : reserveStorage p.toConfig origin limit w.toChain with
  | error e =>
      refine .inl ⟨e, rfl, ?_⟩
      simp only [result, runTransaction, EStateM.run, hreserve]
  | ok s =>
      refine .inr ⟨s, _, rfl, rfl, ?_⟩
      simp only [result, runTransaction, EStateM.run, hreserve]
      generalize body _ _ = t
      cases hcommits : t.commits with
      | false => exact .inl ⟨rfl, if_neg Bool.false_ne_true⟩
      | true =>
          rw [if_pos rfl]
          cases hsettle : (settle p origin [] t.frame t.world).2 with
          | ok w' => exact .inr (.inl ⟨rfl, w', rfl, rfl⟩)
          | error e => exact .inr (.inr ⟨rfl, e, rfl, rfl⟩)

/-- A meter hears of the charges made below the frame `g` when that frame ends. No one reads it
before. -/
def Frame.hear (f g : Frame A) : Frame A :=
  let used := g.meter.totalUsed - g.meter.selfUsed
  let refunded := g.meter.totalRefunded - g.meter.selfRefunded
  { f with meter := f.meter.book used refunded }

/-- The frame that was entered from, and the world, are left as second and third component. -/
def runSubTransaction (origin contract : EvmAddress) (isStatic creates : Bool)
    (body : Frame A → World A N → TransactionOutcome A N R) (f : Frame A) (w : World A N) :
    Except Error R × Frame A × World A N :=
  let t := body ⟨f.meter.childMeter contract, isStatic, creates, w.toChain⟩ w
  if t.commits then
    match settle p origin [f.hear t.frame] t.frame t.world with
    | (outer, .ok w') => (.ok t.result, outer.headD f, w')
    | (outer, .error e) => (.error e, outer.headD f, w)
  else (.ok t.result, f.hear t.frame, w)

theorem runSubTransaction_cases (origin contract : EvmAddress) (isStatic creates : Bool)
    (body : Frame A → World A N → TransactionOutcome A N R) (f : Frame A) (w : World A N) :
    let result := runSubTransaction p origin contract isStatic creates body f w
    let t := body ⟨f.meter.childMeter contract, isStatic, creates, w.toChain⟩ w
    ∃ f', (t.commits = false ∧ result = (.ok t.result, f', w)) ∨
      (t.commits = true ∧ ∃ w', (settle p origin [f.hear t.frame] t.frame t.world).2 = .ok w' ∧
        result = (.ok t.result, f', w')) ∨
      (t.commits = true ∧ ∃ e, (settle p origin [f.hear t.frame] t.frame t.world).2 = .error e ∧
        result = (.error e, f', w)) := by
  intro result t
  have hresult : result = if t.commits then _ else _ := rfl
  rw [hresult]
  cases hcommits : t.commits with
  | false => exact ⟨_, .inl ⟨rfl, if_neg Bool.false_ne_true⟩⟩
  | true =>
      rw [if_pos rfl]
      obtain ⟨outer, ending⟩ := settle p origin [f.hear t.frame] t.frame t.world
      cases ending with
      | ok w' => exact ⟨_, .inr (.inl ⟨rfl, w', rfl, rfl⟩)⟩
      | error e => exact ⟨_, .inr (.inr ⟨rfl, e, rfl, rfl⟩)⟩

/-! ## Bodies -/

def World.transfer (t : Transfer) (w : World A N) : Except Error (World A N) :=
  match transferValue p.toConfig t w.toChain with
  | .ok s => .ok (w.moved p s)
  | .error e => .error (.currency e)

/-- The body of a frame that creates a contract: what the init code returns becomes its code. -/
def creation (run : Interpreter A N) (caller address : EvmAddress) (value : ℕ)
    (maintainer : EvmAddress) (f : Frame A) (w : World A N) :
    TransactionOutcome A N (Except Error CreateInfo) :=
  match w.transfer p ⟨caller, address, value⟩ with
  | .error e => ⟨.error e, false, f, w⟩
  | .ok w₁ =>
      let o := run f w₁
      if o.reason = .succeed then
        let f' := { o.frame with
          meter := o.frame.meter.charge (o.output.length + p.newContractExtraBytes) }
        match (o.world.incNonce address).onContractInitialization p address maintainer o.output with
        | some w' => ⟨.ok ⟨.succeed, address, []⟩, true, f', w'⟩
        | none => ⟨.ok ⟨.error, address, []⟩, false, f', o.world⟩
      else ⟨.ok ⟨o.reason, address, o.output⟩, false, o.frame, o.world⟩

/-- The body of a frame that calls. -/
def messageCall (run : Interpreter A N) (transfer : Option Transfer) (f : Frame A)
    (w : World A N) : TransactionOutcome A N (Except Error CallInfo) :=
  match transfer.elim (.ok w) fun t => w.transfer p t with
  | .error e => ⟨.error e, false, f, w⟩
  | .ok w₁ =>
      let o := run f w₁
      ⟨.ok ⟨o.reason, o.output⟩, o.reason = .succeed, o.frame, o.world⟩

/-! ## The runner -/

namespace Runner

/-- The address of a creation by a dispatched call. -/
def creationAddress (source : EvmAddress) (init : Code) (assigned : Option EvmAddress)
    (salt : Option H256) (w : World A N) : Option EvmAddress :=
  match assigned with
  | some address => some address
  | none =>
      w.createAddress p
        (match salt with
        | some s => .create2 source (p.keccak256 init) s
        | none => .legacy source)

def innerCreate (run : Interpreter A N) (source : EvmAddress) (init : Code)
    (value storageLimit : ℕ) (assigned : Option EvmAddress) (salt : Option H256) :
    Dispatch Error (World A N) CreateInfo := do
  let w ← get
  let address ← okOr (creationAddress p source init assigned salt w) .ConflictContractAddress
  modify (·.incNonce source)
  let info ← runTransaction p source address false true storageLimit
    (creation p run source address value source)
  Dispatch.ofExcept info

def call (run : Interpreter A N) (sender origin target : EvmAddress) (value storageLimit : ℕ) :
    Dispatch Error (World A N) CallInfo := do
  let w ← get
  ensure (w.canCallContract target sender = true) .NoPermission
  modify (·.incNonce sender)
  let info ← runTransaction p origin target false false storageLimit
    (messageCall p run (some ⟨sender, target, value⟩))
  Dispatch.ofExcept info

end Runner

inductive ExecutionMode
  | Execute
  | View
  | EstimateGas
  deriving DecidableEq, Repr

structure InvokeContext where
  contract : EvmAddress
  sender : EvmAddress
  origin : EvmAddress

/-- `EVMTrait::execute`, by which other pallets call a contract. Only a success is kept, and none
of a view. -/
def execute (run : Interpreter A N) (context : InvokeContext) (value storageLimit : ℕ)
    (mode : ExecutionMode) (w : World A N) : World A N :=
  match (Runner.call p run context.sender context.origin context.contract value storageLimit).run
    w with
  | .ok info w' => if mode = .Execute ∧ info.exitReason = .succeed then w' else w
  | .error _ _ => w

/-! ## The handler -/

/-- The kinds of call: `CALL` and `CALLCODE` send a value, which may be zero. -/
inductive CallScheme
  | send (transfer : Transfer)
  | delegateCall
  | staticCall

def CallScheme.transfer : CallScheme → Option Transfer
  | .send t => some t
  | _ => none

def CallScheme.isStatic : CallScheme → Bool
  | .staticCall => true
  | _ => false

/-- Where a call goes: the code to run, its input, and the context it runs in. -/
structure CallTarget where
  codeAddress : EvmAddress
  input : Code
  caller : EvmAddress
  address : EvmAddress

/-- Run a precompile; `pallet` is what the action's pallet does. -/
def precompile (request : Request) (pallet : Interpreter A N) : Interpreter A N := fun f w =>
  match request with
  | .refused => ⟨.error, [], f, w⟩
  | .compute => { pallet f w with frame := f, world := w }
  | .perform action =>
      -- A query of a contract's balance runs the contract as a view.
      if action.writes then pallet f w else { pallet f w with frame := f, world := w }

namespace Handler

/-- The address of a creation by the code of a frame. -/
def creationScheme (f : Frame A) (salt : Option (H256 × H256)) : CreateScheme :=
  match salt with
  | some (codeHash, salt) => .create2 f.meter.contract codeHash salt
  | none => .legacy f.meter.contract

/-- What the code learns about a creation. -/
def created (address : EvmAddress) :
    Except Error (Except Error CreateInfo) → ExitReason × Option EvmAddress × Code
  | .ok (.ok info) =>
      (info.exitReason, if info.exitReason = .succeed then some address else none, info.output)
  | _ => (.error, none, [])

/-- What the code learns about a call. -/
def called : Except Error (Except Error CallInfo) → ExitReason × Code
  | .ok (.ok info) => (info.exitReason, info.output)
  | _ => (.error, [])

def create (origin : EvmAddress) (run : Interpreter A N) (salt : Option (H256 × H256))
    (value : ℕ) (f : Frame A) (w : World A N) :
    (ExitReason × Option EvmAddress × Code) × Frame A × World A N :=
  if f.isStatic then ((.error, none, []), f, w)
  else
    match w.createAddress p (creationScheme f salt) with
    | none => ((.error, none, []), f, w)
    | some address =>
        let r := runSubTransaction p origin address f.isStatic true
          (creation p run f.meter.contract address value origin) f (w.incNonce f.meter.contract)
        (created address r.1, r.2)

/-- The code that a call runs, a contract's or a precompile's. The latter is not told that a
frame is static. -/
def callee (code pallet : Interpreter A N) (target : CallTarget) : Interpreter A N :=
  match AllPrecompiles.request target.codeAddress target.input target.caller with
  | some request => precompile request pallet
  | none => code

def call (origin : EvmAddress) (code pallet : Interpreter A N) (target : CallTarget)
    (transfer : Option Transfer) (isStatic : Bool) (f : Frame A) (w : World A N) :
    (ExitReason × Code) × Frame A × World A N :=
  if f.isStatic && transfer.isSome then ((.error, []), f, w)
  else
    let r := runSubTransaction p origin target.address (f.isStatic || isStatic) false
      (messageCall p (callee code pallet target) transfer) f w
    (called r.1, r.2)

end Handler

/-! ## Code -/

/-- What a code does in one run, in the order it does it. A contract's code writes its storage,
destroys its contract, creates and calls; `init` and `callee` are the runs of the codes that these
run. A precompile's pallet changes what other pallets hold, hands a contract on, or calls a
contract itself. -/
inductive Script (A N : Type)
  | exit (reason : ExitReason) (output : Code)
  | setStorage (index value : H256) (next : Script A N)
  | markDelete (target : EvmAddress)
  | create (salt : Option (H256 × H256)) (value : ℕ) (init next : Script A N)
  | call (target : CallTarget) (scheme : CallScheme) (callee next : Script A N)
  | pallets (change : Reserves A → N → Option (Reserves A × N)) (next : Script A N)
  | transferMaintainer (who : A) (contract newMaintainer : EvmAddress) (next : Script A N)
  | execute (context : InvokeContext) (value storageLimit : ℕ) (mode : ExecutionMode)
      (callee next : Script A N)

/-- The end of a frame that fails. -/
def Outcome.failed (f : Frame A) (w : World A N) : Outcome A N := ⟨.error, [], f, w⟩

/-- `mark_delete` ends the frame. -/
def Handler.markDelete (target : EvmAddress) (f : Frame A) (w : World A N) : Outcome A N :=
  if f.isStatic then .failed f w
  else
    match (removeContract p f.meter.contract target).run w with
    | .ok storage w' => ⟨.succeed, [], { f with meter := f.meter.refund storage }, w'⟩
    | .error _ _ => .failed f w

/-- Run a script. No step of a contract is one of a pallet (`native`), or the other way around. -/
def exec : Script A N → EvmAddress → Bool → Interpreter A N
  | .exit reason output, _, _, f, w => ⟨reason, output, f, w⟩
  | .setStorage index value next, origin, false, f, w =>
      match setStorage f index value w.toChain with
      | some (f', s) => exec next origin false f' (w.withChain s)
      | none => .failed f w
  | .markDelete target, _, false, f, w => Handler.markDelete p target f w
  | .create salt value init next, origin, false, f, w =>
      let r := Handler.create p origin (exec init origin false) salt value f w
      exec next origin false r.2.1 r.2.2
  | .call target scheme callee next, origin, false, f, w =>
      let r := Handler.call p origin (exec callee origin false) (exec callee origin true) target
        scheme.transfer scheme.isStatic f w
      exec next origin false r.2.1 r.2.2
  | .pallets change next, origin, true, f, w =>
      match change w.currency w.pallets with
      | some (currency, pallets) =>
          exec next origin true f
            { w.moved p { w.toChain with currency := currency } with pallets := pallets }
      | none => .failed f w
  | .transferMaintainer who contract newMaintainer next, origin, true, f, w =>
      match (doTransferMaintainer p who contract newMaintainer).run w with
      | .ok _ w' => exec next origin true f w'
      | .error _ _ => .failed f w
  | .execute context value storageLimit mode callee next, origin, true, f, w =>
      exec next origin true f
        (execute p (exec callee context.origin false) context value storageLimit mode w)
  | _, _, _, f, w => .failed f w

end Setheum.Evm
