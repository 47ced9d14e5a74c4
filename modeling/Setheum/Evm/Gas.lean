import Setheum.Evm.Handler

/-!
# Gas of nested frames

A frame pays for its steps from a meter. A call or a creation takes the gas of the frame below from
the meter of the frame that makes it, gives the frame below a meter of its own with as much, and
gives back what that has left when it succeeds.

This is what `Handler::call`, `Handler::create` and `run_sub_transaction` do to gas; what the world
answers them is part of their input. The meter is a model of the gasometer that they use, and
fails when a cost does not fit.

* `GasScript.run_spends` — no frame ends with more gas than it began with.
* `leave_accounted_iff` — when the end of a frame is accounted for in the frame above.
* `subFrames_accounted_iff` — exactly when a call or a creation is.
-/

set_option autoImplicit false

namespace Setheum.Evm

/-! ## The meter -/

structure Gasometer where
  gasLimit : ℕ
  usedGas : ℕ
  memoryGas : ℕ
  refundedGas : ℤ
  failed : Bool
  fits : usedGas + memoryGas ≤ gasLimit

namespace Gasometer

/-- The price of a byte of a contract's code. -/
def G_CODEDEPOSIT : ℕ := 200

def new (gasLimit : ℕ) : Gasometer := ⟨gasLimit, 0, 0, 0, false, Nat.zero_le _⟩

variable (m : Gasometer)

/-- What is left, nothing in a meter that failed. -/
def gas : ℕ := if m.failed then 0 else m.gasLimit - m.usedGas - m.memoryGas

def refunds : ℤ := if m.failed then 0 else m.refundedGas

def fail : Gasometer := { m with failed := true }

/-- Whether a cost fits, and the meter, which fails otherwise. -/
def recordCost (cost : ℕ) : Bool × Gasometer :=
  if h : m.failed = false ∧ m.usedGas + m.memoryGas + cost ≤ m.gasLimit then
    (true, { m with usedGas := m.usedGas + cost, fits := by omega })
  else (false, m.fail)

/-- A cost with what all of the memory costs, a refund, and a check of the opcode. -/
def recordDynamicCost (gasCost memoryGas : ℕ) (refund : ℤ) (checked : Bool) : Bool × Gasometer :=
  if h : (m.failed = false ∧ checked = true) ∧
      m.usedGas + gasCost + max m.memoryGas memoryGas ≤ m.gasLimit then
    (true,
      { m with
        usedGas := m.usedGas + gasCost
        memoryGas := max m.memoryGas memoryGas
        refundedGas := m.refundedGas + refund
        fits := h.2 })
  else (false, m.fail)

def recordStipend (stipend : ℕ) : Bool × Gasometer :=
  if m.failed then (false, m)
  else
    (true, { m with
      usedGas := m.usedGas - stipend
      fits := le_trans (Nat.add_le_add_right (Nat.sub_le ..) _) m.fits })

def recordRefund (refund : ℤ) : Bool × Gasometer :=
  if m.failed then (false, m) else (true, { m with refundedGas := m.refundedGas + refund })

/-- The code of a new contract, by its length. -/
def recordDeposit (len : ℕ) : Bool × Gasometer := m.recordCost (len * G_CODEDEPOSIT)

end Gasometer

/-! ## Calls and creations -/

structure EvmRuntimeConfig where
  callL64AfterGas : Bool
  callStipend : ℕ

/-- What a frame does to its meter, and how it ends. -/
abbrev GasRun := Gasometer → ExitReason × Gasometer

/-- The gas of a call, and what the world answers. -/
structure CallInput where
  targetGas : Option ℕ
  /-- The value that is sent, if the call can send one. -/
  transfer : Option ℕ
  /-- The frame that calls is static. -/
  isStatic : Bool
  /-- The storage meter has a child. -/
  metered : Bool
  /-- The transfer is made. -/
  transferred : Bool
  /-- For a precompile what it costs, if it does not fail. -/
  precompile : Option (Option ℕ)
  /-- The storage meter of the frame below can be finished. -/
  finished : Bool

/-- The gas of a creation, and what the world answers. -/
structure CreateInput where
  targetGas : Option ℕ
  isStatic : Bool
  /-- There is an address for the contract. -/
  addressed : Bool
  metered : Bool
  transferred : Bool
  /-- The length of the code that is returned. -/
  outLen : ℕ
  /-- The storage of the contract is charged. -/
  charged : Bool
  initialized : Bool
  finished : Bool

def l64 (gas : ℕ) : ℕ := gas - gas / 64

section Frames

variable (cfg : EvmRuntimeConfig)

/-- The most gas that a frame below can have. -/
def afterGas (p : Gasometer) : ℕ := if cfg.callL64AfterGas then l64 p.gas else p.gas

/-- The gas of the frame below, with a stipend where a value is sent. -/
def CallInput.childGas (x : CallInput) (p : Gasometer) : ℕ :=
  let targetGas := min (x.targetGas.getD (afterGas cfg p)) (afterGas cfg p)
  if x.transfer.getD 0 = 0 then targetGas else min (targetGas + cfg.callStipend) (2 ^ 64 - 1)

def CreateInput.childGas (x : CreateInput) (p : Gasometer) : ℕ :=
  min (x.targetGas.getD (afterGas cfg p)) (afterGas cfg p)

/-- What the meter of a frame has left is given back, and its refunds are added. -/
def giveBack (child p : Gasometer) : Bool × Gasometer :=
  match p.recordStipend child.gas with
  | (true, p) => p.recordRefund child.refunds
  | (false, p) => (false, p)

/-- The end of a frame in the meter of the frame above. Where the changes are not committed after
all, the gas has been given back. -/
def leave (committed : Bool) (p : Gasometer) : ExitReason × Gasometer → ExitReason × Gasometer
  | (.succeed, child) =>
      match giveBack child p with
      | (true, p) => if committed then (.succeed, p) else (.error, p)
      | (false, p) => (.error, p)
  | (.revert, _) => (.revert, p)
  | (.error, _) => (.error, p)
  | (.fatal, _) => (.fatal, p.fail)

/-- A precompile pays what it costs from the meter of its frame. -/
def precompileGas (cost : Option ℕ) : GasRun := fun m =>
  match cost with
  | some cost =>
      match m.recordCost cost with
      | (true, m) => (.succeed, m)
      | (false, m) => (.error, m)
  | none => (.error, m)

/-- What a call runs, a precompile or a contract's code. -/
def CallInput.callee (x : CallInput) (code : GasRun) : GasRun :=
  match x.precompile with
  | some cost => precompileGas cost
  | none => code

/-- What a creation runs: the init code, and then the deposit of what it returns. -/
def CreateInput.creation (x : CreateInput) (init : GasRun) : GasRun := fun m =>
  match init m with
  | (.succeed, m) =>
      match m.recordDeposit x.outLen with
      | (true, m) => (.succeed, m)
      | (false, m) => (.error, m)
  | ending => ending

/-- A call that is refused before its gas is taken. -/
def CallInput.Refused (x : CallInput) : Prop :=
  (x.isStatic = true ∧ x.transfer.isSome = true) ∨ x.metered = false ∨
    (x.transfer.isSome = true ∧ x.transferred = false)

instance (x : CallInput) : Decidable x.Refused := inferInstanceAs (Decidable (_ ∨ _))

/-- `Handler::call`. -/
def Handler.callGas (x : CallInput) (code : GasRun) (p : Gasometer) : ExitReason × Gasometer :=
  if x.Refused then (.error, p)
  else
    match p.recordCost (x.childGas cfg p) with
    | (false, p') => (.error, p')
    | (true, p') => leave x.finished p' (x.callee code (.new (x.childGas cfg p)))

/-- `Handler::create`. -/
def Handler.createGas (x : CreateInput) (init : GasRun) (p : Gasometer) : ExitReason × Gasometer :=
  if x.isStatic then (.error, p)
  else
    match p.recordCost (x.childGas cfg p) with
    | (false, p') => (.error, p')
    | (true, p') =>
        if x.addressed && x.metered && x.transferred then
          leave (x.charged && x.initialized && x.finished) p'
            (x.creation init (.new (x.childGas cfg p)))
        else (.error, p')

/-- What a code does to its meter in one run. `callee` and `init` are the runs of the codes that it
calls and creates with. -/
inductive GasScript
  | exit (reason : ExitReason)
  | cost (cost : ℕ) (next : GasScript)
  | dynamicCost (gasCost memoryGas : ℕ) (refund : ℤ) (checked : Bool) (next : GasScript)
  | call (x : CallInput) (callee next : GasScript)
  | create (x : CreateInput) (init next : GasScript)

/-- The run of a frame, which ends with an error when a cost does not fit. -/
def GasScript.run : GasScript → GasRun
  | .exit reason, m => (reason, if reason = .fatal then m.fail else m)
  | .cost n next, m =>
      match m.recordCost n with
      | (true, m) => next.run m
      | (false, m) => (.error, m)
  | .dynamicCost gasCost memoryGas refund checked next, m =>
      match m.recordDynamicCost gasCost memoryGas refund checked with
      | (true, m) => next.run m
      | (false, m) => (.error, m)
  | .call x callee next, m => next.run (Handler.callGas cfg x callee.run m).2
  | .create x init next, m => next.run (Handler.createGas cfg x init.run m).2

end Frames

/-! ## What the meter does -/

namespace Gasometer

variable {m : Gasometer}

@[simp] theorem gas_new (gasLimit : ℕ) : (new gasLimit).gas = gasLimit := rfl

@[simp] theorem gas_fail (m : Gasometer) : m.fail.gas = 0 := rfl

theorem gas_of_failed (h : m.failed = true) : m.gas = 0 := if_pos h

theorem gas_add (h : m.failed = false) : m.gas + m.usedGas + m.memoryGas = m.gasLimit := by
  have hfits := m.fits
  rw [gas, h, if_neg Bool.false_ne_true]
  omega

/-- A cost that fits is taken from what is left; another fails the meter. -/
theorem recordCost_cases (m : Gasometer) (cost : ℕ) :
    (m.failed = false ∧ cost ≤ m.gas ∧ ∃ m', m.recordCost cost = (true, m') ∧
      m'.failed = false ∧ m'.gas + cost = m.gas ∧ cost ≤ m'.usedGas) ∨
    ((m.failed = true ∨ m.gas < cost) ∧ m.recordCost cost = (false, m.fail)) := by
  by_cases h : m.failed = false ∧ m.usedGas + m.memoryGas + cost ≤ m.gasLimit
  · have hgas := gas_add h.1
    refine .inl ⟨h.1, by omega, _, dif_pos h, h.1, ?_, Nat.le_add_left ..⟩
    have hgas' := gas_add (m := { m with usedGas := m.usedGas + cost, fits := by omega }) h.1
    dsimp only at hgas'
    omega
  · refine .inr ⟨?_, dif_neg h⟩
    cases hfailed : m.failed with
    | true => exact .inl rfl
    | false =>
        have hgas := gas_add hfailed
        exact .inr (by by_contra hle; exact h ⟨hfailed, by omega⟩)

theorem recordCost_gas_le (m : Gasometer) (cost : ℕ) : (m.recordCost cost).2.gas ≤ m.gas := by
  obtain ⟨-, -, m', hrun, -, hgas, -⟩ | ⟨-, hrun⟩ := recordCost_cases m cost
  · rw [hrun]
    dsimp only
    omega
  · rw [hrun]
    exact Nat.zero_le _

theorem recordDynamicCost_gas_le (m : Gasometer) (gasCost memoryGas : ℕ) (refund : ℤ)
    (checked : Bool) : (m.recordDynamicCost gasCost memoryGas refund checked).2.gas ≤ m.gas := by
  unfold recordDynamicCost
  split
  · rename_i h
    have hgas := gas_add h.1.1
    simp only [gas, h.1.1, Bool.false_eq_true, if_false] at hgas ⊢
    omega
  · exact Nat.zero_le _

/-- What was taken before can be given back. -/
theorem recordStipend_eq {stipend : ℕ} (hm : m.failed = false) (hle : stipend ≤ m.usedGas) :
    ∃ m', m.recordStipend stipend = (true, m') ∧ m'.failed = false ∧
      m'.gas = m.gas + stipend := by
  refine ⟨_, if_neg (hm ▸ Bool.false_ne_true), hm, ?_⟩
  have hgas := gas_add hm
  simp only [gas, hm, Bool.false_eq_true, if_false] at hgas ⊢
  omega

theorem recordRefund_eq (refund : ℤ) (hm : m.failed = false) :
    ∃ m', m.recordRefund refund = (true, m') ∧ m'.failed = false ∧ m'.gas = m.gas :=
  ⟨_, if_neg (hm ▸ Bool.false_ne_true), hm, rfl⟩

end Gasometer

/-! ## What a frame does to the frame above -/

section Accounting

variable {cfg : EvmRuntimeConfig} {p p' : Gasometer}

theorem giveBack_eq {child : Gasometer} (hp : p.failed = false) (hle : child.gas ≤ p.usedGas) :
    ∃ p', giveBack child p = (true, p') ∧ p'.gas = p.gas + child.gas := by
  obtain ⟨p₁, hstipend, hp₁, hgas₁⟩ := Gasometer.recordStipend_eq hp hle
  obtain ⟨p₂, hrefund, -, hgas₂⟩ := Gasometer.recordRefund_eq child.refunds hp₁
  exact ⟨p₂, by rw [giveBack, hstipend]; exact hrefund, by omega⟩

/-- A frame that succeeded gives its gas back, whether or not its changes are committed. -/
theorem leave_succeed {child : Gasometer} {committed : Bool} (hp : p.failed = false)
    (hle : child.gas ≤ p.usedGas) :
    ∃ p', leave committed p (.succeed, child) = (if committed then .succeed else .error, p') ∧
      p'.gas = p.gas + child.gas := by
  obtain ⟨p', hback, hgas⟩ := giveBack_eq hp hle
  refine ⟨p', ?_, hgas⟩
  rw [leave, hback]
  cases committed with
  | true => rfl
  | false => rfl

/-- A frame that ended is accounted for in the frame above: all that it had left is given back when
it succeeded or was reverted, nothing when it failed, and never more than a stipend is gained. -/
structure Accounted (cfg : EvmRuntimeConfig) (childGas left : ℕ) (p : Gasometer)
    (ending : ExitReason × Gasometer) : Prop where
  returned : ending.1 = .succeed ∨ ending.1 = .revert → ending.2.gas + childGas = p.gas + left
  lost : ending.1 = .error → ending.2.gas + childGas = p.gas
  bounded : ending.2.gas ≤ p.gas + cfg.callStipend

/-- The frame leaves nothing behind when it is reverted, or when it succeeds and the changes are not
committed. -/
structure LeavesNothing (committed : Bool) (ending : ExitReason × Gasometer) : Prop where
  revert : ending.1 = .revert → ending.2.gas = 0
  rollback : ending.1 = .succeed → committed = false → ending.2.gas = 0

/-- **The end of a frame is accounted for exactly if nothing is left that is not given back, or is
though it should not be.** -/
theorem leave_accounted_iff {childGas : ℕ} {committed : Bool} {ending : ExitReason × Gasometer}
    (hp' : p'.failed = false) (hgas : p'.gas + childGas = p.gas) (hused : childGas ≤ p'.usedGas)
    (hleft : ending.2.gas ≤ childGas) :
    Accounted cfg childGas ending.2.gas p (leave committed p' ending) ↔
      LeavesNothing committed ending := by
  obtain ⟨reason, child⟩ := ending
  dsimp only at hleft ⊢
  cases reason with
  | succeed =>
      obtain ⟨p₂, hleave, hgas₂⟩ := leave_succeed hp' (hleft.trans hused)
      rw [hleave]
      cases committed with
      | true =>
          rw [if_pos rfl]
          refine iff_of_true ⟨fun _ => ?_, nofun, ?_⟩ ⟨nofun, fun _ => nofun⟩
          · show p₂.gas + childGas = p.gas + child.gas
            omega
          · show p₂.gas ≤ p.gas + cfg.callStipend
            omega
      | false =>
          rw [if_neg Bool.false_ne_true]
          constructor
          · intro h
            have hlost : p₂.gas + childGas = p.gas := h.lost rfl
            refine ⟨nofun, fun _ _ => ?_⟩
            show child.gas = 0
            omega
          · intro h
            have hzero : child.gas = 0 := h.rollback rfl rfl
            refine ⟨nofun, fun _ => ?_, ?_⟩
            · show p₂.gas + childGas = p.gas
              omega
            · show p₂.gas ≤ p.gas + cfg.callStipend
              omega
  | revert =>
      constructor
      · intro h
        have hreturned : p'.gas + childGas = p.gas + child.gas := h.returned (.inr rfl)
        refine ⟨fun _ => ?_, nofun⟩
        show child.gas = 0
        omega
      · intro h
        have hzero : child.gas = 0 := h.revert rfl
        refine ⟨fun _ => ?_, nofun, ?_⟩
        · show p'.gas + childGas = p.gas + child.gas
          omega
        · show p'.gas ≤ p.gas + cfg.callStipend
          omega
  | error =>
      refine iff_of_true ⟨nofun, fun _ => hgas, ?_⟩ ⟨nofun, nofun⟩
      show p'.gas ≤ p.gas + cfg.callStipend
      omega
  | fatal => exact iff_of_true ⟨nofun, nofun, Nat.zero_le _⟩ ⟨nofun, nofun⟩

/-! ## No frame gains gas -/

theorem leave_gas_le {childGas : ℕ} {committed : Bool} {ending : ExitReason × Gasometer}
    (hp' : p'.failed = false) (hgas : p'.gas + childGas = p.gas) (hused : childGas ≤ p'.usedGas)
    (hleft : ending.2.gas ≤ childGas) : (leave committed p' ending).2.gas ≤ p.gas := by
  obtain ⟨reason, child⟩ := ending
  dsimp only at hleft
  cases reason with
  | succeed =>
      obtain ⟨p₂, hleave, hgas₂⟩ := leave_succeed hp' (hleft.trans hused)
      rw [hleave]
      dsimp only
      omega
  | revert =>
      show p'.gas ≤ p.gas
      omega
  | error =>
      show p'.gas ≤ p.gas
      omega
  | fatal => exact Nat.zero_le _

/-- The run of a frame does not add to its meter. -/
def GasRun.Spends (run : GasRun) : Prop := ∀ m, (run m).2.gas ≤ m.gas

/-- Nor does a run that pays first, and ends with an error if the meter fails. -/
theorem GasRun.Spends.paid {run : GasRun} (hrun : run.Spends) {r : Bool × Gasometer} {n : ℕ} :
    r.2.gas ≤ n →
      (match r with
        | (true, m) => run m
        | (false, m) => (.error, m) : ExitReason × Gasometer).2.gas ≤ n := by
  intro hle
  obtain ⟨fits, m⟩ := r
  cases fits with
  | true => exact (hrun m).trans hle
  | false => exact hle

theorem spends_exit (reason : ExitReason) : GasRun.Spends fun m => (reason, m) :=
  fun _ => le_refl _

theorem precompileGas_spends (cost : Option ℕ) : (precompileGas cost).Spends := by
  intro m
  cases cost with
  | none => exact le_refl _
  | some cost => exact (spends_exit .succeed).paid (m.recordCost_gas_le cost)

theorem CallInput.callee_spends (x : CallInput) {code : GasRun} (hcode : code.Spends) :
    (x.callee code).Spends := by
  unfold callee
  split
  · exact precompileGas_spends _
  · exact hcode

theorem CreateInput.creation_spends (x : CreateInput) {init : GasRun} (hinit : init.Spends) :
    (x.creation init).Spends := by
  intro m
  have hle := hinit m
  unfold creation
  generalize init m = ending at hle
  obtain ⟨reason, m'⟩ := ending
  cases reason with
  | succeed =>
      exact (spends_exit .succeed).paid ((m'.recordCost_gas_le _).trans hle)
  | revert => exact hle
  | error => exact hle
  | fatal => exact hle

theorem Handler.callGas_spends (x : CallInput) {code : GasRun} (hcode : code.Spends) :
    GasRun.Spends (Handler.callGas cfg x code) := by
  intro p
  unfold Handler.callGas
  split
  · exact le_refl _
  · obtain ⟨-, -, p', hrun, hp', hgas, hused⟩ | ⟨-, hrun⟩ :=
      p.recordCost_cases (x.childGas cfg p)
    · rw [hrun]
      exact leave_gas_le hp' hgas hused (x.callee_spends hcode _)
    · rw [hrun]
      exact Nat.zero_le _

theorem Handler.createGas_spends (x : CreateInput) {init : GasRun} (hinit : init.Spends) :
    GasRun.Spends (Handler.createGas cfg x init) := by
  intro p
  unfold Handler.createGas
  split
  · exact le_refl _
  · obtain ⟨-, -, p', hrun, hp', hgas, hused⟩ | ⟨-, hrun⟩ :=
      p.recordCost_cases (x.childGas cfg p)
    · rw [hrun]
      dsimp only
      split
      · exact leave_gas_le hp' hgas hused (x.creation_spends hinit _)
      · show p'.gas ≤ p.gas
        omega
    · rw [hrun]
      exact Nat.zero_le _

/-- **No frame ends with more gas than it began with, whatever it calls and creates.** -/
theorem GasScript.run_spends (cfg : EvmRuntimeConfig) (script : GasScript) :
    (script.run cfg).Spends := by
  induction script with
  | exit reason =>
      intro m
      rw [run]
      split
      · exact Nat.zero_le _
      · exact le_refl _
  | cost n next ih =>
      intro m
      exact ih.paid (m.recordCost_gas_le n)
  | dynamicCost gasCost memoryGas refund checked next ih =>
      intro m
      exact ih.paid (m.recordDynamicCost_gas_le gasCost memoryGas refund checked)
  | call x callee next ihCallee ihNext =>
      intro m
      exact (ihNext _).trans (Handler.callGas_spends x ihCallee m)
  | create x init next ihInit ihNext =>
      intro m
      exact (ihNext _).trans (Handler.createGas_spends x ihInit m)

/-! ## Calls and creations -/

/-- How the frame below ends, if it is entered. -/
def CallInput.ending (cfg : EvmRuntimeConfig) (x : CallInput) (script : GasScript)
    (p : Gasometer) : ExitReason × Gasometer :=
  x.callee (script.run cfg) (.new (x.childGas cfg p))

def CreateInput.ending (cfg : EvmRuntimeConfig) (x : CreateInput) (script : GasScript)
    (p : Gasometer) : ExitReason × Gasometer :=
  x.creation (script.run cfg) (.new (x.childGas cfg p))

/-- A call is not refused, or has no gas. Its gas, with the stipend, is there to be taken; and the
frame below leaves nothing that is not given back or should not be. -/
def CallInput.Paid (cfg : EvmRuntimeConfig) (x : CallInput) (script : GasScript)
    (p : Gasometer) : Prop :=
  if x.Refused then x.childGas cfg p = 0
  else x.childGas cfg p ≤ p.gas ∧
    (p.failed = false → LeavesNothing x.finished (x.ending cfg script p))

/-- A creation is not made in a static frame, or has no gas; and likewise. -/
def CreateInput.Paid (cfg : EvmRuntimeConfig) (x : CreateInput) (script : GasScript)
    (p : Gasometer) : Prop :=
  if x.isStatic then x.childGas cfg p = 0
  else p.failed = false → (x.addressed && x.metered && x.transferred) = true →
    LeavesNothing (x.charged && x.initialized && x.finished) (x.ending cfg script p)

/-- An error that takes nothing. -/
theorem accounted_unpaid_iff {childGas left : ℕ} :
    Accounted cfg childGas left p (.error, p) ↔ childGas = 0 := by
  constructor
  · intro h
    have hlost := h.lost rfl
    dsimp only at hlost
    omega
  · rintro rfl
    exact ⟨nofun, fun _ => rfl, Nat.le_add_right ..⟩

/-- An error that fails the meter. -/
theorem accounted_fail_iff {childGas left : ℕ} :
    Accounted cfg childGas left p (.error, p.fail) ↔ childGas = p.gas := by
  constructor
  · intro h
    have hlost := h.lost rfl
    rw [Gasometer.gas_fail] at hlost
    omega
  · rintro rfl
    exact ⟨nofun, fun _ => Nat.zero_add _, Nat.zero_le _⟩

theorem callGas_accounted_iff (x : CallInput) (script : GasScript) :
    Accounted cfg (x.childGas cfg p) (x.ending cfg script p).2.gas p
        (Handler.callGas cfg x (script.run cfg) p) ↔
      x.Paid cfg script p := by
  unfold Handler.callGas CallInput.Paid
  split
  · exact accounted_unpaid_iff
  · obtain ⟨hp, hle, p', hrun, hp', hgas, hused⟩ | ⟨hfails, hrun⟩ :=
      p.recordCost_cases (x.childGas cfg p)
    · rw [hrun]
      have hspends := x.callee_spends (script.run_spends cfg) (.new (x.childGas cfg p))
      refine (leave_accounted_iff hp' hgas hused hspends).trans ?_
      exact ⟨fun h => ⟨hle, fun _ => h⟩, fun h => h.2 hp⟩
    · rw [hrun]
      refine accounted_fail_iff.trans ?_
      obtain hfailed | hlt := hfails
      · rw [Gasometer.gas_of_failed hfailed, hfailed]
        simp
      · exact iff_of_false (by omega) fun h => absurd h.1 (by omega)

theorem createGas_accounted_iff (x : CreateInput) (script : GasScript) :
    Accounted cfg (x.childGas cfg p) (x.ending cfg script p).2.gas p
        (Handler.createGas cfg x (script.run cfg) p) ↔
      x.Paid cfg script p := by
  have hmost : x.childGas cfg p ≤ p.gas := by
    refine (Nat.min_le_right ..).trans ?_
    unfold afterGas l64
    split <;> omega
  unfold Handler.createGas CreateInput.Paid
  split
  · exact accounted_unpaid_iff
  · obtain ⟨hp, -, p', hrun, hp', hgas, hused⟩ | ⟨hfails, hrun⟩ :=
      p.recordCost_cases (x.childGas cfg p)
    · rw [hrun]
      dsimp only
      split
      · rename_i hentered
        have hspends := x.creation_spends (script.run_spends cfg) (.new (x.childGas cfg p))
        refine (leave_accounted_iff hp' hgas hused hspends).trans ?_
        exact ⟨fun h _ _ => h, fun h => h hp hentered⟩
      · rename_i hentered
        exact iff_of_true ⟨nofun, fun _ => hgas, by dsimp only; omega⟩
          fun _ h => absurd h hentered
    · rw [hrun]
      obtain hfailed | hlt := hfails
      · refine iff_of_true (accounted_fail_iff.mpr ?_) fun h => ?_
        · have hzero := Gasometer.gas_of_failed hfailed
          omega
        · rw [hfailed] at h
          cases h
      · omega

/-- **A call or a creation in any frame, with any frame below, is accounted for exactly if its gas
is taken and nothing is left that is not given back or should not be.** -/
theorem subFrames_accounted_iff (cfg : EvmRuntimeConfig) (p : Gasometer) (script : GasScript) :
    (∀ x : CallInput,
      Accounted cfg (x.childGas cfg p) (x.ending cfg script p).2.gas p
          (Handler.callGas cfg x (script.run cfg) p) ↔
        x.Paid cfg script p) ∧
    ∀ x : CreateInput,
      Accounted cfg (x.childGas cfg p) (x.ending cfg script p).2.gas p
          (Handler.createGas cfg x (script.run cfg) p) ↔
        x.Paid cfg script p :=
  ⟨fun x => callGas_accounted_iff x script, fun x => createGas_accounted_iff x script⟩

end Accounting

/-! ## Gas that is not given back -/

def istanbul : EvmRuntimeConfig := ⟨false, 2300⟩

/-- A call of 50000 gas to a contract. -/
def sampleCall : CallInput := ⟨some 50000, none, false, true, true, none, true⟩

/-- A creation of 50000 gas whose storage cannot be charged. -/
def unchargedCreate : CreateInput := ⟨some 50000, false, true, true, true, 10, false, true, true⟩

/-- **A call that is reverted at once takes all of its gas, and a creation that fails because its
storage cannot be charged takes only that of its code.** -/
theorem unaccounted_gas :
    ((Handler.callGas istanbul sampleCall ((GasScript.exit .revert).run istanbul)
          (.new 100000)).2.gas = 50000 ∧
      ¬ Accounted istanbul (sampleCall.childGas istanbul (.new 100000))
        (sampleCall.ending istanbul (.exit .revert) (.new 100000)).2.gas (.new 100000)
        (Handler.callGas istanbul sampleCall ((GasScript.exit .revert).run istanbul)
          (.new 100000))) ∧
    ((Handler.createGas istanbul unchargedCreate ((GasScript.exit .succeed).run istanbul)
          (.new 100000)).2.gas = 98000 ∧
      ¬ Accounted istanbul (unchargedCreate.childGas istanbul (.new 100000))
        (unchargedCreate.ending istanbul (.exit .succeed) (.new 100000)).2.gas (.new 100000)
        (Handler.createGas istanbul unchargedCreate ((GasScript.exit .succeed).run istanbul)
          (.new 100000))) := by
  refine ⟨⟨by decide +kernel, fun h => ?_⟩, by decide +kernel, fun h => ?_⟩
  · exact absurd (h.returned (.inr (by decide +kernel))) (by decide +kernel)
  · exact absurd (h.lost (by decide +kernel)) (by decide +kernel)

end Setheum.Evm
