import Setheum.Lib.Dispatch
import Setheum.Lib.FixedPoint
import Setheum.Primitives.Currency

/-!
# Deposits and withdrawals of every currency

One interface for all currencies. The native one is behind an adapter to the pallet of its
balances, the others in the tokens pallet; ERC-20 contracts take neither deposits nor withdrawals.

Both pallets are parameters, with laws for what they document. The balances pallet returns what it
deposited as an imbalance, which raises the issuance when it is dropped and is zero where nothing
could be deposited. The tokens pallet fails where the issuance overflows, and an account that is
left below the existential deposit may lose what it has as dust.

* `Credited` — when a deposit reaches the account and the issuance.
* `doesWhatItSays_iff` — deposits, withdrawals and updates do what their result says, exactly if
  what they deposit is credited.
-/

set_option autoImplicit false

namespace Setheum.Currencies

open Dispatch

/-- The pallet of the native currency, `frame_support::traits::Currency`. -/
structure PalletCurrency (A E : Type) where
  existentialDeposit : ℕ
  freeBalance : E → A → ℕ
  totalIssuance : E → ℕ
  /-- The account exists. -/
  exist : E → A → Prop
  /-- `deposit_creating`: the amount of the imbalance, and the state before it is dropped. -/
  depositCreating : A → ℕ → E → ℕ × E
  dropPositive : ℕ → E → E
  /-- `withdraw` for all reasons, with `AllowDeath`; the imbalance is the amount. -/
  withdraw : A → ℕ → E → Option E
  dropNegative : ℕ → E → E
  /-- A deposit is made if it is not zero, the account exists or is given enough to, and its
  balance does not overflow. -/
  depositCreating_made : ∀ {who n e}, n ≠ 0 → exist e who ∨ existentialDeposit ≤ n →
    freeBalance e who + n ≤ Balance.maxValue →
      (depositCreating who n e).1 = n ∧
        freeBalance (depositCreating who n e).2 who = freeBalance e who + n ∧
        totalIssuance (depositCreating who n e).2 = totalIssuance e
  /-- Otherwise it does nothing. -/
  depositCreating_noop : ∀ {who n e}, ¬ (n ≠ 0 ∧ (exist e who ∨ existentialDeposit ≤ n) ∧
    freeBalance e who + n ≤ Balance.maxValue) → depositCreating who n e = (0, e)
  freeBalance_dropPositive : ∀ n e who, freeBalance (dropPositive n e) who = freeBalance e who
  totalIssuance_dropPositive : ∀ n e,
    totalIssuance (dropPositive n e) = Balance.saturatingAdd (totalIssuance e) n
  freeBalance_dropNegative : ∀ n e who, freeBalance (dropNegative n e) who = freeBalance e who
  /-- A withdrawal takes the amount, and what is left if that is dust. -/
  freeBalance_withdraw : ∀ {who n e e'}, withdraw who n e = some e' →
    ∃ dust, (dust = 0 ∨ dust < existentialDeposit) ∧
      freeBalance e' who + n + dust = freeBalance e who

/-- The tokens pallet, `MultiCurrencyExtended`. -/
structure Tokens (A E : Type) where
  existentialDeposit : CurrencyId → ℕ
  freeBalance : E → CurrencyId → A → ℕ
  totalIssuance : E → CurrencyId → ℕ
  /-- A deposit leaves the account below the existential deposit, and the handler of dust takes
  all of it. -/
  dusted : E → CurrencyId → A → ℕ → Prop
  deposit : CurrencyId → A → ℕ → E → Option E
  withdraw : CurrencyId → A → ℕ → E → Option E
  updateBalance : CurrencyId → A → ℤ → E → Option E
  deposit_eq_none_iff : ∀ {c who n e}, n ≠ 0 →
    (deposit c who n e = none ↔ Balance.maxValue < totalIssuance e c + n)
  totalIssuance_deposit : ∀ {c who n e e'}, n ≠ 0 → deposit c who n e = some e' →
    totalIssuance e' c = totalIssuance e c + n
  freeBalance_deposit : ∀ {c who n e e'}, n ≠ 0 → deposit c who n e = some e' →
    ¬ dusted e c who n → freeBalance e' c who = freeBalance e c who + n
  freeBalance_dusted : ∀ {c who n e e'}, n ≠ 0 → deposit c who n e = some e' →
    dusted e c who n → freeBalance e' c who = 0
  freeBalance_withdraw : ∀ {c who n e e'}, withdraw c who n e = some e' →
    ∃ dust, (dust = 0 ∨ dust < existentialDeposit c) ∧
      freeBalance e' c who + n + dust = freeBalance e c who
  updateBalance_of_pos : ∀ {c who x e}, 0 < x → updateBalance c who x e = deposit c who x.toNat e
  updateBalance_of_neg : ∀ {c who x e}, Amount.minValue < x → x < 0 →
    updateBalance c who x e = withdraw c who x.natAbs e
  updateBalance_zero : ∀ {c who e}, updateBalance c who 0 e = some e
  updateBalance_minValue : ∀ {c who e}, updateBalance c who Amount.minValue e = none

structure Adapters (A E : Type) where
  getNativeCurrencyId : CurrencyId
  native : PalletCurrency A E
  multiCurrency : Tokens A E

namespace Multi

inductive Error
  | AmountIntoBalanceFailed
  | Erc20InvalidOperation
  /-- An error of one of the two pallets. -/
  | pallet
  deriving DecidableEq, Repr

inductive Event (A : Type)
  | BalanceUpdated (currencyId : CurrencyId) (who : A) (amount : ℤ)
  | Deposited (currencyId : CurrencyId) (who : A) (amount : ℕ)
  | Withdrawn (currencyId : CurrencyId) (who : A) (amount : ℕ)

structure State (A E : Type) where
  balances : E
  events : List (Event A)

abbrev MultiM (A E : Type) := Dispatch Error (State A E)

variable {A E : Type}

/-- `abs` and the conversion to a balance. `abs` of the smallest amount panics or wraps around to
itself, which is no balance. -/
def absIntoBalance (byAmount : ℤ) : Option ℕ :=
  if byAmount = Amount.minValue then none else some byAmount.natAbs

/-! ## The adapter of the native currency -/

namespace BasicCurrencyAdapter

variable (p : PalletCurrency A E)

/-- The imbalance is dropped, whatever it is. -/
def deposit (who : A) (amount : ℕ) (e : E) : Except Error E :=
  let deposited := p.depositCreating who amount e
  .ok (p.dropPositive deposited.1 deposited.2)

def withdraw (who : A) (amount : ℕ) (e : E) : Except Error E :=
  match p.withdraw who amount e with
  | some e' => .ok (p.dropNegative amount e')
  | none => .error .pallet

def updateBalance (who : A) (byAmount : ℤ) (e : E) : Except Error E :=
  match absIntoBalance byAmount with
  | some byBalance => if 0 < byAmount then deposit p who byBalance e else withdraw p who byBalance e
  | none => .error .AmountIntoBalanceFailed

end BasicCurrencyAdapter

/-! ## The calls -/

/-- What the tokens pallet did. -/
def ofTokens : Option E → Except Error E
  | some e => .ok e
  | none => .error .pallet

variable (cfg : Adapters A E)

/-- Call the pallet of a currency, and deposit an event. -/
def onCurrency (c : CurrencyId) (native tokens : E → Except Error E) (event : Event A) :
    MultiM A E Unit := do
  match c with
  | .Erc20 _ => throw .Erc20InvalidOperation
  | _ => do
      onComponent State.balances (fun e s => { s with balances := e }) id
        (if c = cfg.getNativeCurrencyId then native else tokens)
      modify fun s => { s with events := s.events ++ [event] }

def deposit (c : CurrencyId) (who : A) (amount : ℕ) : MultiM A E Unit :=
  if amount = 0 then pure ()
  else
    onCurrency cfg c (BasicCurrencyAdapter.deposit cfg.native who amount)
      (fun e => ofTokens (cfg.multiCurrency.deposit c who amount e)) (.Deposited c who amount)

def withdraw (c : CurrencyId) (who : A) (amount : ℕ) : MultiM A E Unit :=
  if amount = 0 then pure ()
  else
    onCurrency cfg c (BasicCurrencyAdapter.withdraw cfg.native who amount)
      (fun e => ofTokens (cfg.multiCurrency.withdraw c who amount e)) (.Withdrawn c who amount)

def updateBalance (c : CurrencyId) (who : A) (byAmount : ℤ) : MultiM A E Unit :=
  onCurrency cfg c (BasicCurrencyAdapter.updateBalance cfg.native who byAmount)
    (fun e => ofTokens (cfg.multiCurrency.updateBalance c who byAmount e))
    (.BalanceUpdated c who byAmount)

/-! ## What a result says -/

def freeBalance (e : E) (c : CurrencyId) (who : A) : ℕ :=
  if c = cfg.getNativeCurrencyId then cfg.native.freeBalance e who
  else cfg.multiCurrency.freeBalance e c who

def totalIssuance (e : E) (c : CurrencyId) : ℕ :=
  if c = cfg.getNativeCurrencyId then cfg.native.totalIssuance e
  else cfg.multiCurrency.totalIssuance e c

def minimumBalance (c : CurrencyId) : ℕ :=
  if c = cfg.getNativeCurrencyId then cfg.native.existentialDeposit
  else cfg.multiCurrency.existentialDeposit c

/-- The free balance and the issuance are more by the amount. -/
def Raised (c : CurrencyId) (who : A) (amount : ℕ) (e e' : E) : Prop :=
  freeBalance cfg e' c who = freeBalance cfg e c who + amount ∧
    totalIssuance cfg e' c = totalIssuance cfg e c + amount

/-- The free balance is less by the amount, and by what was left if that is dust. -/
def Lowered (c : CurrencyId) (who : A) (amount : ℕ) (e e' : E) : Prop :=
  ∃ dust, (dust = 0 ∨ dust < minimumBalance cfg c) ∧
    freeBalance cfg e' c who + amount + dust = freeBalance cfg e c who

def Updated (c : CurrencyId) (who : A) (byAmount : ℤ) (e e' : E) : Prop :=
  if 0 < byAmount then Raised cfg c who byAmount.toNat e e'
  else Lowered cfg c who byAmount.natAbs e e'

/-- A call that succeeds did this to the balances, and one that fails changed nothing. -/
def DoesWhatItSays (x : MultiM A E Unit) (P : E → E → Prop) (s : State A E) : Prop :=
  match x.run s with
  | .ok _ s' => P s.balances s'.balances
  | .error _ s' => s' = s

/-- A deposit reaches the account and the issuance. Into a native account that does not exist it
is not below the existential deposit, and neither the balance nor the issuance overflows. In
another currency, where an overflow fails, it is not taken as dust. -/
def Credited (e : E) (c : CurrencyId) (who : A) (amount : ℕ) : Prop :=
  amount = 0 ∨
    if c = cfg.getNativeCurrencyId then
      (cfg.native.exist e who ∨ cfg.native.existentialDeposit ≤ amount) ∧
        cfg.native.freeBalance e who + amount ≤ Balance.maxValue ∧
        cfg.native.totalIssuance e + amount ≤ Balance.maxValue
    else
      cfg.multiCurrency.totalIssuance e c + amount ≤ Balance.maxValue →
        ¬ cfg.multiCurrency.dusted e c who amount

/-! ## What the calls do -/

variable {cfg} {c : CurrencyId} {who : A} {amount : ℕ} {s : State A E}

theorem run_onCurrency (hc : ∀ a, c ≠ .Erc20 a) (native tokens : E → Except Error E)
    (event : Event A) :
    (onCurrency cfg c native tokens event).run s =
      match (if c = cfg.getNativeCurrencyId then native else tokens) s.balances with
      | .ok e => .ok () { balances := e, events := s.events ++ [event] }
      | .error err => .error err s := by
  generalize hpallet : (if c = cfg.getNativeCurrencyId then native else tokens) = pallet
  have hcurrency : onCurrency cfg c native tokens event =
      (do
        onComponent State.balances (fun e s => { s with balances := e }) id pallet
        modify fun s => { s with events := s.events ++ [event] }) := by
    rw [← hpallet]
    cases c with
    | Erc20 a => exact absurd rfl (hc a)
    | _ => rfl
  rw [hcurrency]
  cases hrun : pallet s.balances with
  | ok e =>
      simp only [onComponent, EStateM.run, bind, EStateM.bind, hrun]
      rfl
  | error err => simp [onComponent, EStateM.run, bind, EStateM.bind, hrun]

theorem onCurrency_says_iff (hc : ∀ a, c ≠ .Erc20 a) {native tokens : E → Except Error E}
    {event : Event A} {P : E → E → Prop} :
    DoesWhatItSays (onCurrency cfg c native tokens event) P s ↔
      ∀ e, (if c = cfg.getNativeCurrencyId then native else tokens) s.balances = .ok e →
        P s.balances e := by
  rw [DoesWhatItSays, run_onCurrency hc]
  cases (if c = cfg.getNativeCurrencyId then native else tokens) s.balances with
  | ok e => exact ⟨fun h _ heq => Except.ok.inj heq ▸ h, fun h => h e rfl⟩
  | error err => exact iff_of_true rfl nofun

theorem ofTokens_ok {o : Option E} {e : E} : ofTokens o = .ok e ↔ o = some e := by
  cases o with
  | none => exact iff_of_false nofun nofun
  | some e' => exact ⟨fun h => congrArg some (Except.ok.inj h), fun h => h ▸ rfl⟩

/-! ## Deposits -/

/-- The imbalance is the amount exactly if a deposit was made, and the issuance takes all of it if
it does not overflow. -/
theorem adapter_deposit_iff {p : PalletCurrency A E} {e : E} (hamount : amount ≠ 0) :
    (∀ e', BasicCurrencyAdapter.deposit p who amount e = .ok e' →
      p.freeBalance e' who = p.freeBalance e who + amount ∧
        p.totalIssuance e' = p.totalIssuance e + amount) ↔
      (p.exist e who ∨ p.existentialDeposit ≤ amount) ∧
        p.freeBalance e who + amount ≤ Balance.maxValue ∧
        p.totalIssuance e + amount ≤ Balance.maxValue := by
  have hrun : (∀ e', BasicCurrencyAdapter.deposit p who amount e = .ok e' →
      p.freeBalance e' who = p.freeBalance e who + amount ∧
        p.totalIssuance e' = p.totalIssuance e + amount) ↔
      p.freeBalance (p.depositCreating who amount e).2 who = p.freeBalance e who + amount ∧
        Balance.saturatingAdd (p.totalIssuance (p.depositCreating who amount e).2)
          (p.depositCreating who amount e).1 = p.totalIssuance e + amount := by
    rw [← p.totalIssuance_dropPositive,
      ← p.freeBalance_dropPositive (p.depositCreating who amount e).1
        (p.depositCreating who amount e).2]
    exact ⟨fun h => h _ rfl, fun h _ heq => Except.ok.inj heq ▸ h⟩
  rw [hrun]
  by_cases hmade : amount ≠ 0 ∧ (p.exist e who ∨ p.existentialDeposit ≤ amount) ∧
      p.freeBalance e who + amount ≤ Balance.maxValue
  · obtain ⟨himbalance, hfree, hissuance⟩ :=
      p.depositCreating_made hmade.1 hmade.2.1 hmade.2.2
    rw [himbalance, hfree, hissuance, Balance.saturatingAdd, eq_self_iff_true, true_and,
      min_eq_left_iff]
    exact ⟨fun h => ⟨hmade.2.1, hmade.2.2, h⟩, fun h => h.2.2⟩
  · rw [p.depositCreating_noop hmade]
    refine iff_of_false (fun h => ?_) fun h => hmade ⟨hamount, h.1, h.2.1⟩
    have hfree : p.freeBalance e who = p.freeBalance e who + amount := h.1
    omega

theorem tokens_deposit_iff {t : Tokens A E} {e : E} (hamount : amount ≠ 0) :
    (∀ e', ofTokens (t.deposit c who amount e) = .ok e' →
      t.freeBalance e' c who = t.freeBalance e c who + amount ∧
        t.totalIssuance e' c = t.totalIssuance e c + amount) ↔
      (t.totalIssuance e c + amount ≤ Balance.maxValue → ¬ t.dusted e c who amount) := by
  have hnone : t.deposit c who amount e = none ↔ _ := t.deposit_eq_none_iff hamount
  cases hdeposit : t.deposit c who amount e with
  | none =>
      have hover := hnone.mp hdeposit
      exact iff_of_true nofun fun h => by omega
  | some e' =>
      have hfits : t.totalIssuance e c + amount ≤ Balance.maxValue := by
        by_contra hover
        have hfails := hnone.mpr (by omega)
        rw [hdeposit] at hfails
        cases hfails
      constructor
      · intro h _ hdusted
        have hfree := (h e' rfl).1
        rw [t.freeBalance_dusted hamount hdeposit hdusted] at hfree
        omega
      · intro h _ heq
        cases heq
        exact ⟨t.freeBalance_deposit hamount hdeposit (h hfits),
          t.totalIssuance_deposit hamount hdeposit⟩

/-- The pallet of a currency raises the balance and the issuance exactly if the deposit is
credited. -/
theorem raises_iff_credited {e : E} (hamount : amount ≠ 0) :
    (∀ e', (if c = cfg.getNativeCurrencyId then
        BasicCurrencyAdapter.deposit cfg.native who amount
      else fun e => ofTokens (cfg.multiCurrency.deposit c who amount e)) e = .ok e' →
        Raised cfg c who amount e e') ↔
      Credited cfg e c who amount := by
  unfold Raised freeBalance totalIssuance Credited
  rw [or_iff_right hamount]
  by_cases hnative : c = cfg.getNativeCurrencyId
  · simp only [if_pos hnative]
    exact adapter_deposit_iff hamount
  · simp only [if_neg hnative]
    exact tokens_deposit_iff hamount

theorem deposit_says_iff (hc : ∀ a, c ≠ .Erc20 a) :
    DoesWhatItSays (deposit cfg c who amount) (Raised cfg c who amount) s ↔
      Credited cfg s.balances c who amount := by
  by_cases hamount : amount = 0
  · subst hamount
    rw [deposit, if_pos rfl]
    exact iff_of_true ⟨rfl, rfl⟩ (.inl rfl)
  · rw [deposit, if_neg hamount]
    exact (onCurrency_says_iff hc).trans (raises_iff_credited hamount)

/-! ## Withdrawals -/

/-- The pallet of a currency lowers the balance. -/
theorem lowers_of_withdraw {e e' : E}
    (h : (if c = cfg.getNativeCurrencyId then
        BasicCurrencyAdapter.withdraw cfg.native who amount
      else fun e => ofTokens (cfg.multiCurrency.withdraw c who amount e)) e = .ok e') :
    Lowered cfg c who amount e e' := by
  unfold Lowered freeBalance minimumBalance
  by_cases hnative : c = cfg.getNativeCurrencyId
  · simp only [if_pos hnative] at h ⊢
    unfold BasicCurrencyAdapter.withdraw at h
    cases hwithdraw : cfg.native.withdraw who amount e with
    | none =>
        rw [hwithdraw] at h
        cases h
    | some e'' =>
        rw [hwithdraw] at h
        cases h
        rw [cfg.native.freeBalance_dropNegative]
        exact cfg.native.freeBalance_withdraw hwithdraw
  · simp only [if_neg hnative] at h ⊢
    exact cfg.multiCurrency.freeBalance_withdraw (ofTokens_ok.mp h)

theorem withdraw_says (hc : ∀ a, c ≠ .Erc20 a) :
    DoesWhatItSays (withdraw cfg c who amount) (Lowered cfg c who amount) s := by
  by_cases hamount : amount = 0
  · subst hamount
    rw [withdraw, if_pos rfl]
    exact ⟨0, .inl rfl, rfl⟩
  · rw [withdraw, if_neg hamount]
    exact (onCurrency_says_iff hc).mpr fun _ => lowers_of_withdraw

/-! ## Updates -/

/-- The pallet of a currency takes an amount that is not positive as a withdrawal. -/
theorem lowers_of_updateBalance {byAmount : ℤ} (hmin : Amount.minValue ≤ byAmount)
    (hpos : ¬ 0 < byAmount) {e e' : E}
    (h : (if c = cfg.getNativeCurrencyId then
        BasicCurrencyAdapter.updateBalance cfg.native who byAmount
      else fun e => ofTokens (cfg.multiCurrency.updateBalance c who byAmount e)) e = .ok e') :
    Lowered cfg c who byAmount.natAbs e e' := by
  by_cases hid : c = cfg.getNativeCurrencyId
  · rw [if_pos hid, BasicCurrencyAdapter.updateBalance, absIntoBalance] at h
    by_cases hlow : byAmount = Amount.minValue
    · rw [if_pos hlow] at h
      cases h
    · rw [if_neg hlow] at h
      refine lowers_of_withdraw ?_
      rw [if_pos hid]
      simp only [if_neg hpos] at h
      exact h
  · rw [if_neg hid] at h
    have hupdate : cfg.multiCurrency.updateBalance c who byAmount e = some e' := ofTokens_ok.mp h
    by_cases hlow : byAmount = Amount.minValue
    · rw [hlow, cfg.multiCurrency.updateBalance_minValue] at hupdate
      cases hupdate
    · by_cases hzero : byAmount = 0
      · rw [hzero, cfg.multiCurrency.updateBalance_zero] at hupdate
        cases hupdate
        subst hzero
        exact ⟨0, .inl rfl, rfl⟩
      · rw [cfg.multiCurrency.updateBalance_of_neg (lt_of_le_of_ne hmin (Ne.symm hlow))
          (lt_of_le_of_ne (not_lt.mp hpos) hzero)] at hupdate
        refine lowers_of_withdraw ?_
        rw [if_neg hid]
        exact ofTokens_ok.mpr hupdate

/-- And a positive one as a deposit. -/
theorem updateBalance_of_pos {byAmount : ℤ} (hpos : 0 < byAmount) :
    (if c = cfg.getNativeCurrencyId then
        BasicCurrencyAdapter.updateBalance cfg.native who byAmount
      else fun e => ofTokens (cfg.multiCurrency.updateBalance c who byAmount e)) =
      if c = cfg.getNativeCurrencyId then
        BasicCurrencyAdapter.deposit cfg.native who byAmount.toNat
      else fun e => ofTokens (cfg.multiCurrency.deposit c who byAmount.toNat e) := by
  have hlow : byAmount ≠ Amount.minValue := by
    have hminValue : Amount.minValue < 0 := by decide
    omega
  have habs : absIntoBalance byAmount = some byAmount.toNat := by
    rw [absIntoBalance, if_neg hlow]
    congr 1
    omega
  have hnative : BasicCurrencyAdapter.updateBalance cfg.native who byAmount
      = BasicCurrencyAdapter.deposit cfg.native who byAmount.toNat := by
    funext e
    rw [BasicCurrencyAdapter.updateBalance, habs]
    exact if_pos hpos
  simp only [hnative, cfg.multiCurrency.updateBalance_of_pos hpos]

/-- An update is a deposit or a withdrawal of its amount. -/
theorem updateBalance_says_iff (hc : ∀ a, c ≠ .Erc20 a) {byAmount : ℤ}
    (hmin : Amount.minValue ≤ byAmount) :
    DoesWhatItSays (updateBalance cfg c who byAmount) (Updated cfg c who byAmount) s ↔
      (0 < byAmount → Credited cfg s.balances c who byAmount.toNat) := by
  rw [updateBalance, onCurrency_says_iff hc]
  by_cases hpos : 0 < byAmount
  · have hupdated : Updated cfg c who byAmount = Raised cfg c who byAmount.toNat := by
      funext e e'
      rw [Updated, if_pos hpos]
    rw [updateBalance_of_pos hpos, hupdated, raises_iff_credited (by omega)]
    exact ⟨fun h _ => h, fun h => h hpos⟩
  · have hupdated : Updated cfg c who byAmount = Lowered cfg c who byAmount.natAbs := by
      funext e e'
      rw [Updated, if_neg hpos]
    rw [hupdated]
    exact iff_of_true (fun _ => lowers_of_updateBalance hmin hpos) fun h => absurd h hpos

/-! ## Both paths -/

theorem succeeds_deposit (hc : ∀ a, c ≠ .Erc20 a) (hamount : amount ≠ 0) :
    succeeds (deposit cfg c who amount) s = true ↔
      (c ≠ cfg.getNativeCurrencyId →
        cfg.multiCurrency.totalIssuance s.balances c + amount ≤ Balance.maxValue) := by
  unfold Dispatch.succeeds
  rw [deposit, if_neg hamount, run_onCurrency hc]
  by_cases hnative : c = cfg.getNativeCurrencyId
  · simp [hnative, BasicCurrencyAdapter.deposit]
  · have hnone : cfg.multiCurrency.deposit c who amount s.balances = none ↔ _ :=
      cfg.multiCurrency.deposit_eq_none_iff hamount
    rw [if_neg hnative]
    cases hdeposit : cfg.multiCurrency.deposit c who amount s.balances with
    | none =>
        have hover := hnone.mp hdeposit
        simp [ofTokens, hnative]
        omega
    | some e =>
        have hfits :
            ¬ Balance.maxValue < cfg.multiCurrency.totalIssuance s.balances c + amount := by
          rw [← hnone, hdeposit]
          exact nofun
        simp [ofTokens, hnative]
        omega

/-- Books of free balances and issuances. -/
structure Books where
  free : CurrencyId → ℕ → ℕ
  issuance : CurrencyId → ℕ

namespace Books

variable (b : Books) (c : CurrencyId)

def setFree (who n : ℕ) : Books :=
  { b with free := fun c' who' => if c' = c ∧ who' = who then n else b.free c' who' }

def setIssuance (n : ℕ) : Books :=
  { b with issuance := fun c' => if c' = c then n else b.issuance c' }

@[simp] theorem free_setFree (who n : ℕ) : (b.setFree c who n).free c who = n := if_pos ⟨rfl, rfl⟩

@[simp] theorem issuance_setFree (who n : ℕ) : (b.setFree c who n).issuance = b.issuance := rfl

@[simp] theorem free_setIssuance (n : ℕ) : (b.setIssuance c n).free = b.free := rfl

@[simp] theorem issuance_setIssuance (n : ℕ) : (b.setIssuance c n).issuance c = n := if_pos rfl

/-- What is left below an existential deposit of 10 is taken. -/
def undusted (n : ℕ) : ℕ := if n < 10 then 0 else n

def withdraw (who n : ℕ) : Option Books :=
  if n ≤ b.free c who then some (b.setFree c who (undusted (b.free c who - n))) else none

theorem withdraw_spec {b b' : Books} {c : CurrencyId} {who n : ℕ}
    (h : b.withdraw c who n = some b') :
    ∃ dust, (dust = 0 ∨ dust < 10) ∧ b'.free c who + n + dust = b.free c who := by
  unfold withdraw at h
  split at h
  · rename_i hle
    cases h
    rw [free_setFree, undusted]
    split
    · rename_i hdust
      exact ⟨b.free c who - n, .inr hdust, by omega⟩
    · exact ⟨0, .inl rfl, by omega⟩
  · cases h

def deposit (who n : ℕ) : Option Books :=
  if n = 0 then some b
  else if Balance.maxValue < b.issuance c + n then none
  else some ((b.setFree c who (undusted (b.free c who + n))).setIssuance c (b.issuance c + n))

theorem deposit_eq_some {b b' : Books} {c : CurrencyId} {who n : ℕ} (hn : n ≠ 0)
    (h : b.deposit c who n = some b') :
    (b.setFree c who (undusted (b.free c who + n))).setIssuance c (b.issuance c + n) = b' := by
  rw [deposit, if_neg hn] at h
  split at h
  · cases h
  · exact Option.some.inj h

end Books

def samplePallet : PalletCurrency ℕ Books where
  existentialDeposit := 10
  freeBalance b who := b.free (.Token .DNAR) who
  totalIssuance b := b.issuance (.Token .DNAR)
  exist b who := b.free (.Token .DNAR) who ≠ 0
  depositCreating who n b :=
    let free := b.free (.Token .DNAR) who
    if n ≠ 0 ∧ (free ≠ 0 ∨ 10 ≤ n) ∧ free + n ≤ Balance.maxValue then
      (n, b.setFree (.Token .DNAR) who (free + n))
    else (0, b)
  dropPositive n b :=
    b.setIssuance (.Token .DNAR) (Balance.saturatingAdd (b.issuance (.Token .DNAR)) n)
  withdraw who n b := b.withdraw (.Token .DNAR) who n
  dropNegative n b := b.setIssuance (.Token .DNAR) (b.issuance (.Token .DNAR) - n)
  depositCreating_made hn halive hfits := by
    dsimp only
    rw [if_pos ⟨hn, halive, hfits⟩]
    simp
  depositCreating_noop h := if_neg h
  freeBalance_dropPositive _ _ _ := rfl
  totalIssuance_dropPositive n b := b.issuance_setIssuance _ _
  freeBalance_dropNegative _ _ _ := rfl
  freeBalance_withdraw h := Books.withdraw_spec h

def sampleTokens : Tokens ℕ Books where
  existentialDeposit _ := 10
  freeBalance b c who := b.free c who
  totalIssuance b c := b.issuance c
  dusted b c who n := b.free c who + n < 10
  deposit c who n b := b.deposit c who n
  withdraw c who n b := b.withdraw c who n
  updateBalance c who x b :=
    if 0 < x then b.deposit c who x.toNat
    else if x = Amount.minValue then none
    else if x = 0 then some b
    else b.withdraw c who x.natAbs
  deposit_eq_none_iff hn := by
    rw [Books.deposit, if_neg hn]
    split <;> simp [*]
  totalIssuance_deposit hn h := by
    rw [← Books.deposit_eq_some hn h]
    exact Books.issuance_setIssuance ..
  freeBalance_deposit hn h hdust := by
    rw [← Books.deposit_eq_some hn h, Books.free_setIssuance, Books.free_setFree, Books.undusted,
      if_neg hdust]
  freeBalance_dusted hn h hdust := by
    rw [← Books.deposit_eq_some hn h, Books.free_setIssuance, Books.free_setFree, Books.undusted,
      if_pos hdust]
  freeBalance_withdraw h := Books.withdraw_spec h
  updateBalance_of_pos h := if_pos h
  updateBalance_of_neg hmin hneg := by
    rw [if_neg (by omega), if_neg (by omega), if_neg (by omega)]
  updateBalance_zero := by
    intro c who b
    rfl
  updateBalance_minValue := by
    intro c who b
    rfl

def sampleAdapters : Adapters ℕ Books := ⟨.Token .DNAR, samplePallet, sampleTokens⟩

/-- Account 1 has 50 of each currency, and the native one is all issued but for 5. -/
def sampleBooks : State ℕ Books where
  balances :=
    { free := fun _ who => if who = 1 then 50 else 0
      issuance := fun c => if c = .Token .DNAR then Balance.maxValue - 5 else 50 }
  events := []

theorem native_ne_erc20 (a : EvmAddress) : CurrencyId.Token .DNAR ≠ .Erc20 a := by
  intro h
  cases h

end Multi

end Setheum.Currencies
