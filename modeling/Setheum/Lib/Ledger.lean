import Setheum.Lib.FixedPoint

/-!
# A ledger of free balances in several currencies

A `Ledger C A` records the free balance of every account in every currency and the total
issuance of every currency, each at most `u128::MAX` by construction. `transfer`, `deposit` and
`withdraw` check the funds and the bounds; whatever else an implementation may refuse for
(existential deposits, locks, a token contract that reverts) is the parameter `Rules`. An
operation that succeeds moves exactly the amount. Dust is not represented: what an account keeps
below the existential deposit stays with it.

* `transfer_free`, `deposit_free`, `withdraw_free` — the balances after each operation.
* `transfer_issuance`, `deposit_issuance`, `withdraw_issuance` — the issuance after each.
-/

set_option autoImplicit false

/-- Free balances and total issuance, all within the balance type. -/
structure Ledger (C A : Type) where
  free : C → A → ℕ
  issuance : C → ℕ
  free_le : ∀ c a, free c a ≤ Balance.maxValue
  issuance_le : ∀ c, issuance c ≤ Balance.maxValue

namespace Ledger

variable {C A : Type}

/-- Why a ledger operation fails. -/
inductive Error
  | balanceTooLow
  | overflow
  | refused
  deriving DecidableEq, Repr

/-- The grounds other than funds and bounds on which an implementation allows an operation. -/
structure Rules (C A : Type) where
  transferAllowed : Ledger C A → C → A → A → ℕ → Bool
  depositAllowed : Ledger C A → C → A → ℕ → Bool
  withdrawAllowed : Ledger C A → C → A → ℕ → Bool

/-- The rules that never refuse. -/
def Rules.permissive : Rules C A where
  transferAllowed _ _ _ _ _ := true
  depositAllowed _ _ _ _ := true
  withdrawAllowed _ _ _ _ := true

/-- The ledger in which nobody holds anything. -/
def empty : Ledger C A where
  free _ _ := 0
  issuance _ := 0
  free_le _ _ := Nat.zero_le _
  issuance_le _ := Nat.zero_le _

variable [DecidableEq C] [DecidableEq A]

/-- Replace one balance. -/
def setFree (l : Ledger C A) (c : C) (a : A) (n : ℕ) (hn : n ≤ Balance.maxValue) :
    Ledger C A where
  free c' x := if c' = c ∧ x = a then n else l.free c' x
  issuance := l.issuance
  free_le c' x := by
    split
    · exact hn
    · exact l.free_le c' x
  issuance_le := l.issuance_le

/-- Replace one total issuance. -/
def setIssuance (l : Ledger C A) (c : C) (n : ℕ) (hn : n ≤ Balance.maxValue) : Ledger C A where
  free := l.free
  issuance c' := if c' = c then n else l.issuance c'
  free_le := l.free_le
  issuance_le c' := by
    split
    · exact hn
    · exact l.issuance_le c'

/-- Move `n` from `a` to `b`. A transfer of nothing, or to oneself, changes nothing. -/
def transfer (rules : Rules C A) (c : C) (a b : A) (n : ℕ) (l : Ledger C A) :
    Except Error (Ledger C A) :=
  if n = 0 ∨ a = b then .ok l
  else if l.free c a < n then .error .balanceTooLow
  else if hb : l.free c b + n ≤ Balance.maxValue then
    if rules.transferAllowed l c a b n then
      .ok ((l.setFree c a (l.free c a - n) ((Nat.sub_le _ _).trans (l.free_le c a))).setFree
        c b (l.free c b + n) hb)
    else .error .refused
  else .error .overflow

/-- Mint `n` to `a`. -/
def deposit (rules : Rules C A) (c : C) (a : A) (n : ℕ) (l : Ledger C A) :
    Except Error (Ledger C A) :=
  if n = 0 then .ok l
  else if h : l.issuance c + n ≤ Balance.maxValue ∧ l.free c a + n ≤ Balance.maxValue then
    if rules.depositAllowed l c a n then
      .ok ((l.setFree c a (l.free c a + n) h.2).setIssuance c (l.issuance c + n) h.1)
    else .error .refused
  else .error .overflow

/-- Burn `n` from `a`. -/
def withdraw (rules : Rules C A) (c : C) (a : A) (n : ℕ) (l : Ledger C A) :
    Except Error (Ledger C A) :=
  if n = 0 then .ok l
  else if l.free c a < n ∨ l.issuance c < n then .error .balanceTooLow
  else if rules.withdrawAllowed l c a n then
    .ok ((l.setFree c a (l.free c a - n) ((Nat.sub_le _ _).trans (l.free_le c a))).setIssuance
      c (l.issuance c - n) ((Nat.sub_le _ _).trans (l.issuance_le c)))
  else .error .refused

/-! ## What a successful operation moves -/

variable {rules : Rules C A} {c : C} {a b : A} {n : ℕ} {l l' : Ledger C A}

theorem transfer_cases (h : transfer rules c a b n l = .ok l') :
    ((n = 0 ∨ a = b) ∧ l' = l) ∨
      (a ≠ b ∧ n ≤ l.free c a ∧ ∃ ha hb,
        l' = (l.setFree c a (l.free c a - n) ha).setFree c b (l.free c b + n) hb) := by
  unfold transfer at h
  split at h
  · rename_i hnoop
    cases h
    exact .inl ⟨hnoop, rfl⟩
  · rename_i hmoves
    split at h
    · cases h
    · rename_i hlow
      split at h
      · split at h
        · cases h
          exact .inr ⟨fun heq => hmoves (.inr heq), not_lt.mp hlow, _, _, rfl⟩
        · cases h
      · cases h

/-- **A transfer takes `n` from the sender and gives `n` to the receiver**, and nothing else. -/
theorem transfer_free (h : transfer rules c a b n l = .ok l') (c' : C) (x : A) :
    l'.free c' x + (if c' = c ∧ x = a then n else 0)
      = l.free c' x + (if c' = c ∧ x = b then n else 0) := by
  obtain ⟨hnoop, rfl⟩ | ⟨hne, hle, _, _, rfl⟩ := transfer_cases h
  · rcases hnoop with rfl | rfl <;> simp
  · simp only [setFree]
    grind

theorem transfer_issuance (h : transfer rules c a b n l = .ok l') :
    l'.issuance = l.issuance := by
  obtain ⟨-, rfl⟩ | ⟨-, -, _, _, rfl⟩ := transfer_cases h
  · rfl
  · rfl

theorem deposit_cases (h : deposit rules c a n l = .ok l') :
    (n = 0 ∧ l' = l) ∨
      ∃ ha hc, l' = (l.setFree c a (l.free c a + n) ha).setIssuance c (l.issuance c + n) hc := by
  unfold deposit at h
  split at h
  · rename_i hn
    cases h
    exact .inl ⟨hn, rfl⟩
  · split at h
    · split at h
      · cases h
        exact .inr ⟨_, _, rfl⟩
      · cases h
    · cases h

/-- **A deposit gives `n` to the receiver**, and nothing else. -/
theorem deposit_free (h : deposit rules c a n l = .ok l') (c' : C) (x : A) :
    l'.free c' x = l.free c' x + (if c' = c ∧ x = a then n else 0) := by
  obtain ⟨rfl, rfl⟩ | ⟨_, _, rfl⟩ := deposit_cases h
  · simp
  · simp only [setFree, setIssuance]
    grind

theorem deposit_issuance (h : deposit rules c a n l = .ok l') (c' : C) :
    l'.issuance c' = l.issuance c' + (if c' = c then n else 0) := by
  obtain ⟨rfl, rfl⟩ | ⟨_, _, rfl⟩ := deposit_cases h
  · simp
  · simp only [setFree, setIssuance]
    grind

theorem withdraw_cases (h : withdraw rules c a n l = .ok l') :
    (n = 0 ∧ l' = l) ∨
      (n ≤ l.free c a ∧ n ≤ l.issuance c ∧ ∃ ha hc,
        l' = (l.setFree c a (l.free c a - n) ha).setIssuance c (l.issuance c - n) hc) := by
  unfold withdraw at h
  split at h
  · rename_i hn
    cases h
    exact .inl ⟨hn, rfl⟩
  · split at h
    · cases h
    · rename_i hlow
      split at h
      · cases h
        exact .inr ⟨by omega, by omega, _, _, rfl⟩
      · cases h

/-- **A withdrawal takes `n` from the holder**, and nothing else. -/
theorem withdraw_free (h : withdraw rules c a n l = .ok l') (c' : C) (x : A) :
    l'.free c' x + (if c' = c ∧ x = a then n else 0) = l.free c' x := by
  obtain ⟨rfl, rfl⟩ | ⟨hle, -, _, _, rfl⟩ := withdraw_cases h
  · simp
  · simp only [setFree, setIssuance]
    grind

theorem withdraw_issuance (h : withdraw rules c a n l = .ok l') (c' : C) :
    l'.issuance c' + (if c' = c then n else 0) = l.issuance c' := by
  obtain ⟨rfl, rfl⟩ | ⟨-, hle, _, _, rfl⟩ := withdraw_cases h
  · simp
  · simp only [setFree, setIssuance]
    grind

end Ledger
