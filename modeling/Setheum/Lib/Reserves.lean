import Mathlib.Algebra.BigOperators.Group.Finset.Piecewise
import Mathlib.Order.Basic

/-!
# Free and reserved balances of one currency

Part of an account's balance can be reserved: it stays with the account but cannot be spent.
`reserve` fails without the funds, `unreserve` and `repatriateReserved` take what there is. On what
other grounds an implementation refuses (existential deposits, locks, dead accounts) is the
parameter `Rules`. No amount here is near the bounds of the balance type, and dust is not
represented: what an account keeps below the existential deposit stays with it.

* `reserve_reserved`, `unreserve_reserved`, `transfer_reserved` — the reserved balances after each
  operation.
* `foldl_reserved` — what taking the same amount from several accounts leaves them.
* `repatriateReserved_shifted` — a repatriation with the funds shifts the whole amount.
* `totalOver_of_moved` — what moves between two accounts of a set leaves their total.
* `reserve_of_le`, `unreserve_of_le`, `repatriateFree_of_le`, `repatriateReserved_of_le` — the
  balances after an operation that finds what it asks for.
-/

set_option autoImplicit false

/-- The free and the reserved balance of every account. -/
structure Reserves (A : Type) where
  free : A → ℕ
  reserved : A → ℕ

namespace Reserves

variable {A : Type} [DecidableEq A]

/-- Why an operation fails. -/
inductive Error
  | insufficientBalance
  | refused
  deriving DecidableEq, Repr

/-- The grounds other than funds on which an implementation allows an operation. -/
structure Rules (A : Type) where
  reserveAllowed : Reserves A → A → ℕ → Bool
  transferAllowed : Reserves A → A → A → ℕ → Bool
  repatriateAllowed : Reserves A → A → A → ℕ → Bool

/-- The rules that never refuse. -/
def Rules.permissive : Rules A where
  reserveAllowed _ _ _ := true
  transferAllowed _ _ _ _ := true
  repatriateAllowed _ _ _ _ := true

/-- Reserve `n` of the free balance. -/
def reserve (rules : Rules A) (who : A) (n : ℕ) (r : Reserves A) : Except Error (Reserves A) :=
  if n = 0 then .ok r
  else if r.free who < n then .error .insufficientBalance
  else if rules.reserveAllowed r who n then
    .ok
      { free := fun a => if a = who then r.free a - n else r.free a
        reserved := fun a => if a = who then r.reserved a + n else r.reserved a }
  else .error .refused

/-- Free up to `n` of the reserved balance. -/
def unreserve (who : A) (n : ℕ) (r : Reserves A) : Reserves A where
  free a := if a = who then r.free a + min n (r.reserved who) else r.free a
  reserved a := if a = who then r.reserved a - min n (r.reserved who) else r.reserved a

/-- Move `n` of the free balance. A transfer of nothing, or to oneself, changes nothing. -/
def transfer (rules : Rules A) (a b : A) (n : ℕ) (r : Reserves A) : Except Error (Reserves A) :=
  if n = 0 ∨ a = b then .ok r
  else if r.free a < n then .error .insufficientBalance
  else if rules.transferAllowed r a b n then
    .ok
      { free := fun x => if x = a then r.free x - n else if x = b then r.free x + n else r.free x
        reserved := r.reserved }
  else .error .refused

/-- Move up to `n` of a reserved balance to the reserved balance of the beneficiary. -/
def repatriateReserved (rules : Rules A) (slashed beneficiary : A) (n : ℕ) (r : Reserves A) :
    Except Error (Reserves A) :=
  if n = 0 ∨ slashed = beneficiary then .ok r
  else if rules.repatriateAllowed r slashed beneficiary n then
    .ok
      { free := r.free
        reserved := fun a =>
          if a = slashed then r.reserved a - min n (r.reserved slashed)
          else if a = beneficiary then r.reserved a + min n (r.reserved slashed)
          else r.reserved a }
  else .error .refused

/-- Move up to `n` of a reserved balance to the free balance of the beneficiary. -/
def repatriateFree (rules : Rules A) (slashed beneficiary : A) (n : ℕ) (r : Reserves A) :
    Except Error (Reserves A) :=
  if slashed = beneficiary then .ok (unreserve slashed n r)
  else if n = 0 then .ok r
  else if rules.repatriateAllowed r slashed beneficiary n then
    .ok
      { free := fun a =>
          if a = beneficiary then r.free a + min n (r.reserved slashed) else r.free a
        reserved := fun a =>
          if a = slashed then r.reserved a - min n (r.reserved slashed) else r.reserved a }
  else .error .refused

/-- Take up to `n` of a reserved balance away; what is taken goes to the collector. -/
def slashReserved (who collector : A) (n : ℕ) (r : Reserves A) : Reserves A where
  free a := if a = collector then r.free a + min n (r.reserved who) else r.free a
  reserved a := if a = who then r.reserved a - min n (r.reserved who) else r.reserved a

variable {rules : Rules A} {r r' : Reserves A} {n : ℕ}

theorem reserve_reserved {who : A} (h : reserve rules who n r = .ok r') (a : A) :
    r'.reserved a = r.reserved a + if a = who then n else 0 := by
  unfold reserve at h
  split at h
  · rename_i hn
    cases h
    simp [hn]
  · split at h
    · cases h
    · split at h
      · cases h
        simp only
        split <;> omega
      · cases h

theorem unreserve_reserved (who : A) (n : ℕ) (r : Reserves A) (a : A) :
    (unreserve who n r).reserved a + (if a = who then min n (r.reserved who) else 0)
      = r.reserved a := by
  simp only [unreserve]
  split
  · rename_i ha
    subst ha
    omega
  · omega

/-- What is taken, up to what there is, is a truncated subtraction. -/
theorem taken_eq_sub (who : A) (n : ℕ) (reserved : A → ℕ) (a : A) :
    (if a = who then reserved a - min n (reserved who) else reserved a)
      = reserved a - if a = who then n else 0 := by
  split
  · rename_i ha
    subst ha
    omega
  · rfl

theorem unreserve_reserved_sub (who : A) (n : ℕ) (r : Reserves A) (a : A) :
    (unreserve who n r).reserved a = r.reserved a - if a = who then n else 0 :=
  taken_eq_sub who n r.reserved a

theorem slashReserved_reserved_sub (who collector : A) (n : ℕ) (r : Reserves A) (a : A) :
    (slashReserved who collector n r).reserved a = r.reserved a - if a = who then n else 0 :=
  taken_eq_sub who n r.reserved a

/-- What is unreserved becomes free. -/
theorem unreserve_total (who : A) (n : ℕ) (r : Reserves A) (a : A) :
    (unreserve who n r).free a + (unreserve who n r).reserved a = r.free a + r.reserved a := by
  simp only [unreserve]
  split
  · rename_i ha
    subst ha
    omega
  · rfl

theorem repatriateFree_reserved {slashed beneficiary : A}
    (h : repatriateFree rules slashed beneficiary n r = .ok r') (a : A) :
    r'.reserved a = r.reserved a - if a = slashed then n else 0 := by
  unfold repatriateFree at h
  split at h
  · cases h
    exact unreserve_reserved_sub slashed n r a
  · split at h
    · rename_i hn
      cases h
      simp [hn]
    · split at h
      · cases h
        exact taken_eq_sub slashed n r.reserved a
      · cases h

/-- A repatriation that is allowed goes through: it takes what there is. -/
theorem repatriateFree_ok {slashed beneficiary : A}
    (hallowed : rules.repatriateAllowed r slashed beneficiary n = true) :
    ∃ r', repatriateFree rules slashed beneficiary n r = .ok r' := by
  unfold repatriateFree
  split
  · exact ⟨_, rfl⟩
  · split
    · exact ⟨_, rfl⟩
    · exact ⟨_, rfl⟩

/-- **Several accounts are taken the same amount.** One that comes several times pays several
times. -/
theorem foldl_reserved {f : A → Reserves A → Reserves A}
    (hf : ∀ who r a, (f who r).reserved a = r.reserved a - if a = who then n else 0)
    (whos : List A) (r : Reserves A) (a : A) :
    (whos.foldl (fun r who => f who r) r).reserved a = r.reserved a - whos.count a * n := by
  induction whos generalizing r with
  | nil => simp
  | cons who whos ih =>
      rw [List.foldl_cons, ih, hf, List.count_cons]
      by_cases ha : a = who
      · subst ha
        simp only [beq_self_eq_true, if_true, Nat.add_mul]
        omega
      · have hne : (who == a) = false := beq_eq_false_iff_ne.mpr fun h => ha h.symm
        simp [ha, hne]

theorem foldl_unreserve_total (whos : List A) (n : ℕ) (r : Reserves A) (a : A) :
    (whos.foldl (fun r who => unreserve who n r) r).free a +
      (whos.foldl (fun r who => unreserve who n r) r).reserved a = r.free a + r.reserved a := by
  induction whos generalizing r with
  | nil => rfl
  | cons who whos ih => rw [List.foldl_cons, ih, unreserve_total]

theorem transfer_reserved {a b : A} (h : transfer rules a b n r = .ok r') :
    r'.reserved = r.reserved := by
  unfold transfer at h
  split at h
  · cases h
    rfl
  · split at h
    · cases h
    · split at h
      · cases h
        rfl
      · cases h

/-- `n` of the reserved balance of `a` became reserved balance of `b`. -/
def Shifted (a b : A) (n : ℕ) (r r' : Reserves A) : Prop :=
  ∀ x, r'.reserved x + (if x = a then n else 0) = r.reserved x + if x = b then n else 0

theorem repatriateReserved_shifted {slashed beneficiary : A} (hne : slashed ≠ beneficiary)
    (hn : n ≤ r.reserved slashed)
    (h : repatriateReserved rules slashed beneficiary n r = .ok r') :
    Shifted slashed beneficiary n r r' := by
  intro a
  unfold repatriateReserved at h
  split at h
  · rename_i hnoop
    cases h
    have hzero : n = 0 := hnoop.resolve_right hne
    simp [hzero]
  · split at h
    · cases h
      rw [Nat.min_eq_left hn]
      grind
    · cases h

/-! ## Operations that find what they ask for -/

variable (rules r) in
theorem reserve_of_le {who : A} (hallowed : rules.reserveAllowed r who n = true)
    (hn : n ≤ r.free who) :
    ∃ r', reserve rules who n r = .ok r' ∧ ∀ a,
      r'.free a + (if a = who then n else 0) = r.free a ∧
        r'.reserved a = r.reserved a + if a = who then n else 0 := by
  by_cases hzero : n = 0
  · refine ⟨r, if_pos hzero, fun a => ?_⟩
    simp [hzero]
  · unfold reserve
    rw [if_neg hzero, if_neg (Nat.not_lt.mpr hn), if_pos hallowed]
    refine ⟨_, rfl, fun a => ⟨?_, ?_⟩⟩
    · dsimp only
      split
      · rename_i ha
        subst ha
        omega
      · rfl
    · dsimp only
      split
      · rfl
      · rfl

theorem unreserve_of_le {who : A} (hn : n ≤ r.reserved who) (a : A) :
    (unreserve who n r).free a = r.free a + (if a = who then n else 0) ∧
      (unreserve who n r).reserved a + (if a = who then n else 0) = r.reserved a := by
  simp only [unreserve, Nat.min_eq_left hn]
  split
  · rename_i ha
    subst ha
    omega
  · exact ⟨rfl, rfl⟩

variable (rules r) in
theorem repatriateFree_of_le {slashed : A} (beneficiary : A)
    (hallowed : rules.repatriateAllowed r slashed beneficiary n = true)
    (hn : n ≤ r.reserved slashed) :
    ∃ r', repatriateFree rules slashed beneficiary n r = .ok r' ∧ ∀ a,
      r'.free a = r.free a + (if a = beneficiary then n else 0) ∧
        r'.reserved a + (if a = slashed then n else 0) = r.reserved a := by
  by_cases hself : slashed = beneficiary
  · subst hself
    exact ⟨_, if_pos rfl, unreserve_of_le hn⟩
  · by_cases hzero : n = 0
    · refine ⟨r, ?_, fun a => ?_⟩
      · unfold repatriateFree
        rw [if_neg hself, if_pos hzero]
      · simp [hzero]
    · unfold repatriateFree
      rw [if_neg hself, if_neg hzero, if_pos hallowed]
      refine ⟨_, rfl, fun a => ⟨?_, ?_⟩⟩
      · dsimp only
        rw [Nat.min_eq_left hn]
        split
        · rfl
        · rfl
      · dsimp only
        rw [Nat.min_eq_left hn]
        split
        · rename_i ha
          subst ha
          omega
        · rfl

variable (rules r) in
theorem repatriateReserved_of_le {slashed : A} (beneficiary : A)
    (hallowed : rules.repatriateAllowed r slashed beneficiary n = true)
    (hn : n ≤ r.reserved slashed) :
    ∃ r', repatriateReserved rules slashed beneficiary n r = .ok r' ∧ r'.free = r.free ∧
      Shifted slashed beneficiary n r r' := by
  by_cases hnoop : n = 0 ∨ slashed = beneficiary
  · refine ⟨r, if_pos hnoop, rfl, fun a => ?_⟩
    obtain rfl | rfl := hnoop
    · rw [ite_self, ite_self]
    · rfl
  · obtain ⟨r', hok, hfree⟩ : ∃ r', repatriateReserved rules slashed beneficiary n r = .ok r' ∧
        r'.free = r.free := by
      unfold repatriateReserved
      rw [if_neg hnoop, if_pos hallowed]
      exact ⟨_, rfl, rfl⟩
    exact ⟨r', hok, hfree, repatriateReserved_shifted (fun h => hnoop (.inr h)) hn hok⟩

/-! ## What several accounts have together -/

variable {X : Finset A}

omit [DecidableEq A] in
/-- What the accounts of a set have, free and reserved. -/
def totalOver (X : Finset A) (r : Reserves A) : ℕ := ∑ a ∈ X, (r.free a + r.reserved a)

/-- What moves from one account of the set to another stays. -/
theorem totalOver_of_moved {a b : A} (ha : a ∈ X) (hb : b ∈ X)
    (h : ∀ x, r'.free x + r'.reserved x + (if x = a then n else 0)
      = r.free x + r.reserved x + if x = b then n else 0) :
    r'.totalOver X = r.totalOver X := by
  have hsum : r'.totalOver X + n = r.totalOver X + n := by
    calc r'.totalOver X + n
        = ∑ x ∈ X, (r'.free x + r'.reserved x + if x = a then n else 0) := by
          rw [Finset.sum_add_distrib, Finset.sum_ite_eq', if_pos ha]
          rfl
      _ = ∑ x ∈ X, (r.free x + r.reserved x + if x = b then n else 0) :=
          Finset.sum_congr rfl fun x _ => h x
      _ = r.totalOver X + n := by
          rw [Finset.sum_add_distrib, Finset.sum_ite_eq', if_pos hb]
          rfl
  omega

theorem reserve_totalOver {who : A} (h : reserve rules who n r = .ok r') :
    r'.totalOver X = r.totalOver X := by
  refine Finset.sum_congr rfl fun a _ => ?_
  unfold reserve at h
  split at h
  · cases h
    rfl
  · split at h
    · cases h
    · split at h
      · cases h
        dsimp only
        split
        · rename_i ha
          subst ha
          omega
        · rfl
      · cases h

theorem unreserve_totalOver (who : A) (n : ℕ) (r : Reserves A) :
    (unreserve who n r).totalOver X = r.totalOver X :=
  Finset.sum_congr rfl fun a _ => unreserve_total who n r a

theorem repatriateFree_totalOver {slashed beneficiary : A} (hslashed : slashed ∈ X)
    (hbeneficiary : beneficiary ∈ X) (hn : n ≤ r.reserved slashed)
    (hallowed : rules.repatriateAllowed r slashed beneficiary n = true)
    (h : repatriateFree rules slashed beneficiary n r = .ok r') :
    r'.totalOver X = r.totalOver X := by
  obtain ⟨r₁, h₁, hafter⟩ := repatriateFree_of_le rules r beneficiary hallowed hn
  cases h₁.symm.trans h
  refine totalOver_of_moved (n := n) hslashed hbeneficiary fun x => ?_
  obtain ⟨hfree, hreserved⟩ := hafter x
  omega

theorem repatriateReserved_totalOver {slashed beneficiary : A} (hslashed : slashed ∈ X)
    (hbeneficiary : beneficiary ∈ X) (hn : n ≤ r.reserved slashed)
    (hallowed : rules.repatriateAllowed r slashed beneficiary n = true)
    (h : repatriateReserved rules slashed beneficiary n r = .ok r') :
    r'.totalOver X = r.totalOver X := by
  obtain ⟨r₁, h₁, hfree, hshifted⟩ := repatriateReserved_of_le rules r beneficiary hallowed hn
  cases h₁.symm.trans h
  refine totalOver_of_moved (n := n) hslashed hbeneficiary fun x => ?_
  have hreserved := hshifted x
  rw [hfree]
  omega

end Reserves
