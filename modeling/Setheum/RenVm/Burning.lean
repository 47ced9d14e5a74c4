import Setheum.Lib.AppendLog
import Setheum.RenVm.Bridge

/-!
# The log of burns

An account that leaves the chain burns its tokens, and the burn is logged under the next id for
RenVM to release the asset on the other chain. The id is taken, the tokens are withdrawn and the
record is written in one step, or none of it happens.

* `run_burn_ok` — a burn goes through when an id is left and the withdrawal is allowed.
* `step_logs` — an extrinsic appends the burn that goes through to the log, and nothing else.
* `burn_log` — the log holds every burn of a run once, unaltered, and adds up to what was withdrawn.
-/

set_option autoImplicit false

namespace Setheum.RenVm

open StorageMap

variable {A E : Type} [DecidableEq A] (cfg : Config A E)

/-- The block, the destination and the amount of a burn. -/
abbrev BurnRecord := ℕ × DestAddress × ℕ

/-- The record of the burn that goes through in this state. -/
def burnt (s : State A E) : Extrinsic A E → Option BurnRecord
  | .signed who (.burn dest amount) =>
      if (burn cfg (some who) dest amount).succeeds s then
        some (s.blockNumber, dest, amount.toNat)
      else none
  | _ => none

/-- The burns of a run, oldest first. -/
def burnHistory : State A E → List (Extrinsic A E) → List BurnRecord
  | _, [] => []
  | s, e :: run => (burnt cfg s e).toList ++ burnHistory (step cfg s e) run

/-- What a burn call takes from the balance of its sender. -/
def withdrawn (s : State A E) : Extrinsic A E → ℤ
  | .signed who (.burn dest amount) =>
      s.bridgedToken.free () who
        - (step cfg s (.signed who (.burn dest amount))).bridgedToken.free () who
  | _ => 0

/-- What the burn calls of a run take from the balances of their senders. -/
def totalWithdrawn : State A E → List (Extrinsic A E) → ℤ
  | _, [] => 0
  | s, e :: run => withdrawn cfg s e + totalWithdrawn (step cfg s e) run

/-! ## What one burn does -/

/-- The state after a burn whose withdrawal turned the ledger into `l`. -/
def State.burning (s : State A E) (dest : DestAddress) (amount : Bytes 16) (l : Ledger Unit A) :
    State A E :=
  { s with bridgedToken := l
           burnEvents :=
             s.burnEvents.insert s.nextBurnEventId (s.blockNumber, dest, amount.toNat)
           nextBurnEventId := s.nextBurnEventId + 1 }

variable {cfg} {s : State A E} {origin : Origin A} {dest : DestAddress} {amount : Bytes 16}

/-- **A burn goes through** when a signer is there, an id is left and the withdrawal is allowed. -/
theorem run_burn_ok {s' : State A E} {u : Unit} :
    (burn cfg origin dest amount).run s = .ok u s' ↔
      ∃ who, origin = some who ∧ s.nextBurnEventId + 1 < 2 ^ 32 ∧
        ∃ l, Ledger.withdraw cfg.rules () who amount.toNat s.bridgedToken = .ok l ∧
          s.burning dest amount l = s' := by
  simp only [burn, withdraw, Dispatch.run_bind_ok, Dispatch.run_okOr_ok, Dispatch.run_get_ok,
    Dispatch.run_ensure_ok, Dispatch.run_onComponent_ok, Dispatch.run_modify_ok]
  constructor
  · rintro ⟨who, _, ⟨horigin, rfl⟩, _, _, ⟨rfl, rfl⟩, _, _, ⟨hid, rfl⟩, _, _, ⟨l, hl, rfl⟩, rfl⟩
    exact ⟨who, horigin, hid, l, hl, rfl⟩
  · rintro ⟨who, horigin, hid, l, hl, rfl⟩
    exact ⟨who, s, ⟨horigin, rfl⟩, s, s, ⟨rfl, rfl⟩, (), s, ⟨hid, rfl⟩, (), _, ⟨l, hl, rfl⟩, rfl⟩

/-- **A burn that fails leaves everything as it was.** -/
theorem burn_failsClean : Dispatch.FailsClean (burn cfg origin dest amount) := by
  refine Dispatch.failsClean_bind Dispatch.silent_okOr fun who => ?_
  refine Dispatch.failsClean_bind Dispatch.silent_get fun s => ?_
  refine Dispatch.failsClean_bind Dispatch.silent_ensure fun _ => ?_
  refine Dispatch.failsClean_bind_neverFails ?_ fun _ => ?_
  · exact Dispatch.failsClean_onComponent
  · exact Dispatch.neverFails_modify _

variable (cfg) in
/-- A burn either goes through or changes nothing. -/
theorem step_burn (s : State A E) (who : A) (dest : DestAddress) (amount : Bytes 16) :
    (burnt cfg s (.signed who (.burn dest amount)) = some (s.blockNumber, dest, amount.toNat) ∧
        ∃ l, Ledger.withdraw cfg.rules () who amount.toNat s.bridgedToken = .ok l ∧
          step cfg s (.signed who (.burn dest amount)) = s.burning dest amount l) ∨
      (burnt cfg s (.signed who (.burn dest amount)) = none ∧
        step cfg s (.signed who (.burn dest amount)) = s) := by
  cases hrun : (burn cfg (some who) dest amount).run s with
  | ok u s' =>
      obtain ⟨who', ⟨⟩, -, l, hl, rfl⟩ := run_burn_ok.mp hrun
      refine .inl ⟨?_, l, hl, Dispatch.commit_of_ok hrun⟩
      simp [burnt, Dispatch.succeeds_of_ok hrun]
  | error e s' =>
      have hs : s' = s := burn_failsClean hrun
      subst hs
      refine .inr ⟨?_, Dispatch.commit_of_error hrun⟩
      simp [burnt, Dispatch.succeeds, hrun]

/-- What a burn takes is the amount it logs. -/
theorem withdrawn_eq (s : State A E) (e : Extrinsic A E) :
    withdrawn cfg s e = ((burnt cfg s e).elim 0 fun r => (r.2.2 : ℤ)) := by
  cases e with
  | unsigned call => rfl
  | outside bridgedToken blockNumber external => rfl
  | signed who call =>
      cases call with
      | mint dest pHash amount nHash sig => rfl
      | rotateKey newKey sig => rfl
      | burn dest amount =>
          show (s.bridgedToken.free () who : ℤ)
            - (step cfg s (.signed who (.burn dest amount))).bridgedToken.free () who = _
          rcases step_burn cfg s who dest amount with ⟨hburnt, l, hl, hstep⟩ | ⟨hburnt, hstep⟩
          · have hfree := Ledger.withdraw_free hl () who
            rw [if_pos ⟨rfl, rfl⟩] at hfree
            rw [hburnt, hstep]
            show (s.bridgedToken.free () who : ℤ) - l.free () who = amount.toNat
            omega
          · rw [hburnt, hstep]
            exact sub_self _

/-- A burn takes nothing from anyone else, and what it takes leaves the issuance. -/
theorem step_burn_rest (s : State A E) (who : A) (dest : DestAddress) (amount : Bytes 16) :
    let e : Extrinsic A E := .signed who (.burn dest amount)
    (∀ x, x ≠ who → (step cfg s e).bridgedToken.free () x = s.bridgedToken.free () x) ∧
      (s.bridgedToken.issuance () : ℤ) - (step cfg s e).bridgedToken.issuance ()
        = withdrawn cfg s e := by
  intro e
  rw [withdrawn_eq]
  rcases step_burn cfg s who dest amount with ⟨hburnt, l, hl, hstep⟩ | ⟨hburnt, hstep⟩
  · rw [hburnt, hstep]
    constructor
    · intro x hx
      have hfree := Ledger.withdraw_free hl () x
      rwa [if_neg fun h => hx h.2, Nat.add_zero] at hfree
    · have hissuance := Ledger.withdraw_issuance hl ()
      rw [if_pos rfl] at hissuance
      show (s.bridgedToken.issuance () : ℤ) - l.issuance () = amount.toNat
      omega
  · rw [hburnt, hstep]
    exact ⟨fun _ _ => rfl, sub_self _⟩

/-! ## What a run logs -/

variable (cfg) in
/-- Only burns write the log. -/
theorem log_kept (s : State A E) {e : Extrinsic A E}
    (he : ∀ who dest amount, e ≠ .signed who (.burn dest amount)) :
    (step cfg s e).burnEvents = s.burnEvents ∧
      (step cfg s e).nextBurnEventId = s.nextBurnEventId := by
  let Kept : State A E → Prop := fun t =>
    t.burnEvents = s.burnEvents ∧ t.nextBurnEventId = s.nextBurnEventId
  have hmint : ∀ origin who pHash amount nHash sig,
      Dispatch.Preserves Kept (mint cfg origin who pHash amount nHash sig) := by
    intro origin who pHash amount nHash sig
    refine Dispatch.preserves_bind Dispatch.preserves_ensure fun _ => ?_
    refine Dispatch.preserves_bind (Dispatch.preserves_bind ?_ fun _ => ?_) fun _ => ?_
    · exact Dispatch.preserves_onComponent fun _ _ h => h
    · exact Dispatch.preserves_modify fun _ h => h
    · exact Dispatch.preserves_modify fun _ h => h
  have hrotate : ∀ origin newKey sig,
      Dispatch.Preserves Kept (rotateKey origin newKey sig : RenVmM A E Unit) := by
    intro origin newKey sig
    refine Dispatch.preserves_bind Dispatch.preserves_ensure fun _ => ?_
    exact Dispatch.preserves_modify fun _ h => h
  have hexecute : Dispatch.Preserves Kept (execute cfg e) := by
    cases e with
    | outside bridgedToken blockNumber external => exact Dispatch.preserves_modify fun _ h => h
    | signed who call =>
        cases call with
        | mint dest pHash amount nHash sig => exact hmint _ _ pHash amount nHash sig
        | rotateKey newKey sig => exact hrotate _ newKey sig
        | burn dest amount => exact absurd rfl (he who dest amount)
    | unsigned call =>
        refine Dispatch.preserves_bind Dispatch.preserves_get fun t => ?_
        cases call with
        | mint dest pHash amount nHash sig =>
            split
            · exact hmint _ _ pHash amount nHash sig
            · exact Dispatch.preserves_throw _
        | rotateKey newKey sig =>
            split
            · exact hrotate _ newKey sig
            · exact Dispatch.preserves_throw _
        -- an unsigned burn never validates
        | burn dest amount => exact Dispatch.preserves_throw _
  exact hexecute s ⟨rfl, rfl⟩

/-- **An extrinsic appends the burn that goes through to the log**, and nothing else. -/
theorem step_logs {l : List BurnRecord} (h : Logs s.burnEvents s.nextBurnEventId l)
    (e : Extrinsic A E) :
    Logs (step cfg s e).burnEvents (step cfg s e).nextBurnEventId
      (l ++ (burnt cfg s e).toList) := by
  by_cases he : ∀ who dest amount, e ≠ .signed who (.burn dest amount)
  · have hnone : burnt cfg s e = none := by
      unfold burnt
      split
      · exact absurd rfl (he _ _ _)
      · rfl
    obtain ⟨hevents, hnext⟩ := log_kept cfg s he
    rw [hnone, hevents, hnext, Option.toList_none, List.append_nil]
    exact h
  · push Not at he
    obtain ⟨who, dest, amount, rfl⟩ := he
    rcases step_burn cfg s who dest amount with ⟨hburnt, l, -, hstep⟩ | ⟨hburnt, hstep⟩
    · rw [hburnt, hstep]
      exact h.append _
    · rw [hburnt, hstep, Option.toList_none, List.append_nil]
      exact h

theorem run_logs {l : List BurnRecord} (h : Logs s.burnEvents s.nextBurnEventId l)
    (run : List (Extrinsic A E)) :
    Logs (Machine.run (step cfg) s run).burnEvents
      (Machine.run (step cfg) s run).nextBurnEventId (l ++ burnHistory cfg s run) := by
  induction run generalizing s l with
  | nil =>
      rw [burnHistory, List.append_nil]
      exact h
  | cons e run ih =>
      rw [Machine.run_cons, burnHistory, ← List.append_assoc]
      exact ih (step_logs h e)

theorem burnHistory_append (s : State A E) (run run' : List (Extrinsic A E)) :
    burnHistory cfg s (run ++ run')
      = burnHistory cfg s run ++ burnHistory cfg (Machine.run (step cfg) s run) run' := by
  induction run generalizing s with
  | nil => rfl
  | cons e run ih =>
      rw [List.cons_append, burnHistory, burnHistory, ih, List.append_assoc, Machine.run_cons]

/-- The amounts logged in a run add up to what its burns took. -/
theorem totalWithdrawn_eq (s : State A E) (run : List (Extrinsic A E)) :
    totalWithdrawn cfg s run = (((burnHistory cfg s run).map fun r => r.2.2).sum : ℕ) := by
  induction run generalizing s with
  | nil => rfl
  | cons e run ih =>
      rw [totalWithdrawn, burnHistory, withdrawn_eq, ih, List.map_append, List.sum_append]
      cases burnt cfg s e <;> simp

variable (cfg)

/-- **The log of burns is complete.** However the extrinsics of a run succeed or fail, the ids in
the log are those below the next one, what was logged is never altered, the logged amounts add up
to what was withdrawn from the accounts that burnt, and a burn that fails changes nothing. -/
theorem burn_log {s₀ : State A E} (hevents : s₀.burnEvents = ∅) (hnext : s₀.nextBurnEventId = 0)
    (run : List (Extrinsic A E)) :
    let s := Machine.run (step cfg) s₀ run
    (∀ k, k ∈ s.burnEvents ↔ k < s.nextBurnEventId) ∧
      (∀ earlier later, run = earlier ++ later → ∀ k record,
        (Machine.run (step cfg) s₀ earlier).burnEvents.lookup k = some record →
          s.burnEvents.lookup k = some record) ∧
      ((sumBy (fun _ record => record.2.2) s.burnEvents : ℕ) : ℤ) = totalWithdrawn cfg s₀ run ∧
      (∀ who dest amount, let e : Extrinsic A E := .signed who (.burn dest amount)
        (∀ x, x ≠ who → (step cfg s e).bridgedToken.free () x = s.bridgedToken.free () x) ∧
          (s.bridgedToken.issuance () : ℤ) - (step cfg s e).bridgedToken.issuance ()
            = withdrawn cfg s e) ∧
      (∀ origin dest amount, (burn cfg origin dest amount).succeeds s = false →
        (burn cfg origin dest amount).commit s = s) ∧
      ∀ who dest amount, s.bridgedToken.free () who < amount.toNat ∨
        2 ^ 32 ≤ s.nextBurnEventId + 1 → (burn cfg (some who) dest amount).succeeds s = false := by
  have hlogs₀ : Logs s₀.burnEvents s₀.nextBurnEventId [] := by
    rw [hevents, hnext]
    exact Logs.empty
  intro s
  have hlogs : Logs s.burnEvents s.nextBurnEventId (burnHistory cfg s₀ run) :=
    run_logs hlogs₀ run
  refine ⟨hlogs.mem_iff, ?_, ?_, fun who dest amount => step_burn_rest s who dest amount, ?_, ?_⟩
  · rintro earlier later rfl k record hk
    rw [burnHistory_append] at hlogs
    exact (run_logs hlogs₀ earlier).lookup_append hlogs hk
  · rw [totalWithdrawn_eq, hlogs.sumBy_eq]
  · intro origin dest amount hfails
    rcases burn_failsClean.commit_cases s with ⟨u, hrun⟩ | hsame
    · rw [Dispatch.succeeds_of_ok hrun] at hfails
      cases hfails
    · exact hsame
  · intro who dest amount hshort
    by_contra hsucc
    obtain ⟨u, s', hrun⟩ := Dispatch.exists_run_ok (Bool.not_eq_false _ ▸ hsucc)
    obtain ⟨who', ⟨⟩, hid, l, hl, -⟩ := run_burn_ok.mp hrun
    have hfree := Ledger.withdraw_free hl () who
    rw [if_pos ⟨rfl, rfl⟩] at hfree
    omega

/-- A bridge whose token refuses nothing. -/
def burnConfig : Config ℕ Unit where
  rules := Ledger.Rules.permissive
  currencyIdentifier := 0
  unsignedPriority := 0
  encode _ := []
  keccak256 _ := 0
  secp256k1EcdsaRecover _ _ := none
  chargeFee _ e := e

theorem burnState_fits : 100 ≤ Balance.maxValue := by decide

/-- Account 1 holds 100 tokens, and nothing has been burnt yet. -/
def burnState : State ℕ Unit where
  bridgedToken :=
    (Ledger.empty.setFree () 1 100 burnState_fits).setIssuance () 100 burnState_fits
  renVmPublicKey := none
  signatures := ∅
  burnEvents := ∅
  nextBurnEventId := 0
  blockNumber := 1
  external := ()

/-- The second of these burns asks for more than there is. -/
def burnRun : List (Extrinsic ℕ Unit) :=
  [.signed 1 (.burn [1, 2] 7), .signed 1 (.burn [3] 200), .signed 1 (.burn [4] 5)]

theorem burn_log_burnRun :
    let s := Machine.run (step burnConfig) burnState burnRun
    (∀ k, k ∈ s.burnEvents ↔ k < 2) ∧
      ((sumBy (fun _ record => record.2.2) s.burnEvents : ℕ) : ℤ) = 12 := by
  have hnext : (Machine.run (step burnConfig) burnState burnRun).nextBurnEventId = 2 := by
    decide +kernel
  have htotal : totalWithdrawn burnConfig burnState burnRun = 12 := by decide +kernel
  obtain ⟨hids, -, hsum, -⟩ := burn_log burnConfig
    (show burnState.burnEvents = ∅ from rfl) rfl burnRun
  rw [hnext] at hids
  rw [htotal] at hsum
  exact ⟨hids, hsum⟩

end Setheum.RenVm
