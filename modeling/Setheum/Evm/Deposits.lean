import Mathlib.Algebra.BigOperators.Group.List.Basic
import Mathlib.Tactic.Linarith
import Mathlib.Tactic.LinearCombination
import Setheum.Evm.StorageMeter

/-!
# The law of storage deposits

A committed transaction should leave the origin's reserve as it was, change every contract's
reserve by the deposit of the change of its recorded size, and add no more bytes than its limit.

* `Conserved` — that law, between the chain before a transaction and after it.
* `Law` — what holds within a transaction: the origin's reserve is down by what is *booked* on the
  outermost meter (counted by finished frames), and a contract's reserve is behind its recorded
  size by what its open frames counted themselves and have not yet been charged for.
* `Entered` — the law of the chains that the open frames go back to when they are rolled back.
* `Law.charge` — a charge that finds the reserves it moves keeps the law.
-/

set_option autoImplicit false

namespace Setheum.Evm

open StorageMap

/-! ## Meters in net bytes -/

/-- The net bytes a frame used itself. -/
def StorageMeter.selfNet (m : StorageMeter) : ℤ := m.selfUsed - m.selfRefunded

/-- The net bytes that frames below this one booked on its meter. -/
def StorageMeter.booked (m : StorageMeter) : ℤ := m.usedStorage - m.selfNet

section Meter

variable (m : StorageMeter) (contract : EvmAddress) (limit n used refunded : ℕ)

@[simp] theorem StorageMeter.booked_new : (StorageMeter.new contract limit).booked = 0 := rfl

@[simp] theorem StorageMeter.selfNet_new : (StorageMeter.new contract limit).selfNet = 0 := rfl

@[simp] theorem StorageMeter.contract_charge : (m.charge n).contract = m.contract := rfl

@[simp] theorem StorageMeter.contract_refund : (m.refund n).contract = m.contract := rfl

@[simp] theorem StorageMeter.booked_charge : (m.charge n).booked = m.booked := by
  simp only [booked, usedStorage, selfNet, charge]
  omega

@[simp] theorem StorageMeter.selfNet_charge : (m.charge n).selfNet = m.selfNet + n := by
  simp only [selfNet, charge]
  omega

@[simp] theorem StorageMeter.booked_refund : (m.refund n).booked = m.booked := by
  simp only [booked, usedStorage, selfNet, refund]
  omega

@[simp] theorem StorageMeter.selfNet_refund : (m.refund n).selfNet = m.selfNet - n := by
  simp only [selfNet, refund]
  omega

@[simp] theorem StorageMeter.booked_book :
    (m.book used refunded).booked = m.booked + (used - refunded) := by
  simp only [booked, usedStorage, selfNet, book]
  omega

@[simp] theorem StorageMeter.selfNet_book : (m.book used refunded).selfNet = m.selfNet := rfl

/-- The limit handed back is the limit less what is booked, unless more is booked than that. -/
theorem StorageMeter.newLimit_eq (h : m.booked ≤ m.limit) :
    (m.newLimit : ℤ) = m.limit - m.booked := by
  simp only [booked, usedStorage, selfNet, newLimit] at *
  omega

end Meter

/-! ## Frames -/

variable {A : Type}

/-- What the open frames of a contract counted themselves. -/
def pending (c : EvmAddress) (frames : List (Frame A)) : ℤ :=
  (frames.map fun f => if f.meter.contract = c then f.meter.selfNet else 0).sum

def pendingTotal (frames : List (Frame A)) : ℤ :=
  (frames.map fun f => f.meter.selfNet).sum

/-- The frames after a charge went through all of them. -/
def bookAll (used refunded : ℕ) (frames : List (Frame A)) : List (Frame A) :=
  frames.map fun f => { f with meter := f.meter.book used refunded }

@[simp] theorem pending_nil (c : EvmAddress) : pending c ([] : List (Frame A)) = 0 := rfl

@[simp] theorem pending_cons (c : EvmAddress) (f : Frame A) (outer : List (Frame A)) :
    pending c (f :: outer)
      = (if f.meter.contract = c then f.meter.selfNet else 0) + pending c outer :=
  List.sum_cons

@[simp] theorem pendingTotal_nil : pendingTotal ([] : List (Frame A)) = 0 := rfl

@[simp] theorem pendingTotal_cons (f : Frame A) (outer : List (Frame A)) :
    pendingTotal (f :: outer) = f.meter.selfNet + pendingTotal outer :=
  List.sum_cons

@[simp] theorem bookAll_nil (used refunded : ℕ) :
    bookAll used refunded ([] : List (Frame A)) = [] :=
  rfl

@[simp] theorem bookAll_cons (used refunded : ℕ) (f : Frame A) (outer : List (Frame A)) :
    bookAll used refunded (f :: outer)
      = { f with meter := f.meter.book used refunded } :: bookAll used refunded outer :=
  rfl

@[simp] theorem bookAll_eq_nil {used refunded : ℕ} {frames : List (Frame A)} :
    bookAll used refunded frames = [] ↔ frames = [] :=
  List.map_eq_nil_iff

/-- A charge that goes through a frame leaves what the frame counted itself. -/
@[simp] theorem pending_bookAll (c : EvmAddress) (used refunded : ℕ) (frames : List (Frame A)) :
    pending c (bookAll used refunded frames) = pending c frames := by
  simp [pending, bookAll, Function.comp_def, StorageMeter.book, StorageMeter.selfNet]

@[simp] theorem pendingTotal_bookAll (used refunded : ℕ) (frames : List (Frame A)) :
    pendingTotal (bookAll used refunded frames) = pendingTotal frames := by
  simp [pendingTotal, bookAll, Function.comp_def]

/-! ## The chain -/

/-- The bytes recorded over all contracts. -/
def Chain.totalSize (s : Chain A) : ℕ := sumBy (fun _ size => size) s.contractStorageSizes

section Chain

variable (s : Chain A) (c : EvmAddress) (index value : H256) (n : ℕ)

@[simp] theorem Chain.write_currency : (s.write c index value).currency = s.currency := rfl

@[simp] theorem Chain.write_storageSize (d : EvmAddress) :
    (s.write c index value).storageSize d = s.storageSize d := rfl

@[simp] theorem Chain.write_totalSize : (s.write c index value).totalSize = s.totalSize := rfl

@[simp] theorem Chain.growContract_currency : (s.growContract c n).currency = s.currency := rfl

@[simp] theorem Chain.shrinkContract_currency : (s.shrinkContract c n).currency = s.currency := rfl

theorem Chain.growContract_storageSize (d : EvmAddress) :
    (s.growContract c n).storageSize d = s.storageSize d + if c = d then n else 0 := by
  by_cases hd : c = d
  · subst hd
    simp [storageSize, growContract]
  · simp [storageSize, growContract, get_insert_ne _ _ _ (Ne.symm hd), hd]

theorem Chain.shrinkContract_storageSize (h : n ≤ s.storageSize c) (d : EvmAddress) :
    ((s.shrinkContract c n).storageSize d : ℤ)
      = s.storageSize d - if c = d then (n : ℤ) else 0 := by
  by_cases hd : c = d
  · subst hd
    simp only [storageSize, shrinkContract, get_insert, if_true] at *
    omega
  · simp [storageSize, shrinkContract, get_insert_ne _ _ _ (Ne.symm hd), hd]

theorem Chain.growContract_totalSize : (s.growContract c n).totalSize = s.totalSize + n := by
  have h := sumBy_insert_add (fun _ size => size) s.contractStorageSizes c (s.storageSize c + n)
  rw [weightAt_eq_get (fun _ size => size) s.contractStorageSizes c (d := 0) rfl] at h
  simp only [totalSize, growContract, storageSize] at *
  omega

theorem Chain.shrinkContract_totalSize (h : n ≤ s.storageSize c) :
    (s.shrinkContract c n).totalSize + n = s.totalSize := by
  have hsum := sumBy_insert_add (fun _ size => size) s.contractStorageSizes c (s.storageSize c - n)
  rw [weightAt_eq_get (fun _ size => size) s.contractStorageSizes c (d := 0) rfl] at hsum
  simp only [totalSize, shrinkContract, storageSize] at *
  omega

end Chain

/-! ## The law of a transaction -/

variable (cfg : Config A) (origin : EvmAddress)

/-- The reserved balance of the account of an address. -/
def Chain.reserved (s : Chain A) (c : EvmAddress) : ℕ := s.currency.reserved (cfg.accountId c)

/-- What a committed transaction with limit `limit` keeps, from chain `s` to chain `s'`. -/
structure Conserved (limit : ℕ) (s s' : Chain A) : Prop where
  origin_reserved : s'.reserved cfg origin = s.reserved cfg origin
  contract_reserved : ∀ c ≠ origin, (s'.reserved cfg c : ℤ) - s.reserved cfg c
    = cfg.storageDepositPerByte * (s'.storageSize c - s.storageSize c)
  total_le : s'.totalSize ≤ s.totalSize + limit

/-- The law within a transaction that began in `base`: `b` bytes are booked on the outermost meter,
and the frames under way have not been charged for what they counted themselves. -/
structure Law (base : Chain A) (limit : ℕ) (b : ℤ) (frames : List (Frame A)) (s : Chain A) :
    Prop where
  origin_reserved : (s.reserved cfg origin : ℤ)
    = base.reserved cfg origin + cfg.storageDepositPerByte * (limit - b)
  contract_reserved : ∀ c ≠ origin, (s.reserved cfg c : ℤ) = base.reserved cfg c
    + cfg.storageDepositPerByte * (s.storageSize c - base.storageSize c - pending c frames)
  total : (s.totalSize : ℤ) = base.totalSize + b + pendingTotal frames

/-- `b` bytes are booked on the outermost meter, and every other frame was entered in a chain that
met the law, when less was booked by what its own meter has booked since. -/
def Entered (base : Chain A) (limit : ℕ) (b : ℤ) : List (Frame A) → Prop
  | [] => True
  | [root] => root.meter.booked = b
  | f :: g :: outer =>
      Law cfg origin base limit (b - f.meter.booked) (g :: outer) f.snapshot ∧
        Entered base limit b (g :: outer)

variable {cfg origin} {base s s' : Chain A} {limit : ℕ} {b : ℤ} {f f' : Frame A}
  {outer : List (Frame A)}

/-- Reserves and recorded sizes are all that the law reads of the chain. -/
theorem Law.congr (h : Law cfg origin base limit b outer s)
    (hreserved : s'.currency.reserved = s.currency.reserved)
    (hsizes : s'.contractStorageSizes = s.contractStorageSizes) :
    Law cfg origin base limit b outer s' := by
  have hr : ∀ c, s'.reserved cfg c = s.reserved cfg c := fun c => congrFun hreserved _
  have hsize : ∀ c, s'.storageSize c = s.storageSize c := fun c => by
    rw [Chain.storageSize, hsizes, Chain.storageSize]
  have htotal : s'.totalSize = s.totalSize := by
    rw [Chain.totalSize, hsizes, Chain.totalSize]
  refine ⟨?_, ?_, ?_⟩
  · rw [hr]
    exact h.origin_reserved
  · intro c hc
    rw [hr, hsize]
    exact h.contract_reserved c hc
  · rw [htotal]
    exact h.total

/-- Bytes that a contract grows by are pending on the meter that counts them. -/
theorem Law.grow (h : Law cfg origin base limit b (f :: outer) s) (n : ℕ) :
    Law cfg origin base limit b ({ f with meter := f.meter.charge n } :: outer)
      (s.growContract f.meter.contract n) := by
  obtain ⟨horigin, hcontract, htotal⟩ := h
  refine ⟨horigin, fun c hc => ?_, ?_⟩
  · have hlaw := hcontract c hc
    have hbytes : ((s.growContract f.meter.contract n).storageSize c : ℤ)
        - pending c ({ f with meter := f.meter.charge n } :: outer)
        = s.storageSize c - pending c (f :: outer) := by
      rw [Chain.growContract_storageSize, pending_cons, pending_cons]
      simp only [StorageMeter.selfNet_charge, StorageMeter.contract_charge]
      split_ifs <;> omega
    rw [sub_right_comm, hbytes, sub_right_comm]
    exact hlaw
  · rw [Chain.growContract_totalSize]
    simp only [pendingTotal_cons, StorageMeter.selfNet_charge, Nat.cast_add] at *
    omega

theorem Law.shrink (h : Law cfg origin base limit b (f :: outer) s) {n : ℕ}
    (hn : n ≤ s.storageSize f.meter.contract) :
    Law cfg origin base limit b ({ f with meter := f.meter.refund n } :: outer)
      (s.shrinkContract f.meter.contract n) := by
  obtain ⟨horigin, hcontract, htotal⟩ := h
  refine ⟨horigin, fun c hc => ?_, ?_⟩
  · have hlaw := hcontract c hc
    have hbytes : ((s.shrinkContract f.meter.contract n).storageSize c : ℤ)
        - pending c ({ f with meter := f.meter.refund n } :: outer)
        = s.storageSize c - pending c (f :: outer) := by
      rw [Chain.shrinkContract_storageSize _ _ _ hn, pending_cons, pending_cons]
      simp only [StorageMeter.selfNet_refund, StorageMeter.contract_refund]
      split_ifs <;> omega
    rw [sub_right_comm, hbytes, sub_right_comm]
    exact hlaw
  · have hsize := Chain.shrinkContract_totalSize s f.meter.contract n hn
    simp only [pendingTotal_cons, StorageMeter.selfNet_refund] at *
    omega

/-- Entering a frame keeps the law: its meter has counted nothing. -/
theorem Law.enter (h : Law cfg origin base limit b outer s) (hself : f.meter.selfNet = 0) :
    Law cfg origin base limit b (f :: outer) s := by
  refine ⟨h.origin_reserved, fun c hc => ?_, ?_⟩
  · rw [h.contract_reserved c hc, pending_cons, hself, ite_self, zero_add]
  · rw [h.total, pendingTotal_cons, hself, zero_add]

/-- A charge that goes through frames leaves what they owe. -/
theorem Law.through (h : Law cfg origin base limit b outer s) (used refunded : ℕ) :
    Law cfg origin base limit b (bookAll used refunded outer) s := by
  refine ⟨h.origin_reserved, fun c hc => ?_, ?_⟩
  · rw [pending_bookAll, h.contract_reserved c hc]
  · rw [pendingTotal_bookAll, h.total]

/-- What is booked on one frame is booked on the outermost one. -/
theorem Entered.through (h : Entered cfg origin base limit b outer) (used refunded : ℕ) :
    Entered cfg origin base limit (b + (used - refunded)) (bookAll used refunded outer) := by
  induction outer with
  | nil => trivial
  | cons f outer ih =>
      cases outer with
      | nil =>
          have hb : f.meter.booked = b := h
          show (f.meter.book used refunded).booked = b + (used - refunded)
          rw [StorageMeter.booked_book, hb]
      | cons g outer =>
          refine ⟨?_, ih h.2⟩
          rw [StorageMeter.booked_book, add_sub_add_right_eq_sub]
          exact h.1.through used refunded

/-! ## Moving a deposit -/

variable [DecidableEq A] (cfg origin)

/-- The reserves that a charge moves are there, and it moves them between two accounts. -/
def Covered (m : StorageMeter) (s : Chain A) : Prop :=
  m.selfUsed = m.selfRefunded ∨
    m.contract ≠ origin ∧
      deposit cfg (m.selfUsed - m.selfRefunded) ≤ s.reserved cfg origin ∧
      deposit cfg (m.selfRefunded - m.selfUsed) ≤ s.reserved cfg m.contract

/-- What a charge changes the reserves by: `n` bytes move from the origin to the contract. -/
structure Moved (contract : EvmAddress) (n : ℤ) (s s' : Chain A) : Prop where
  sizes : s'.contractStorageSizes = s.contractStorageSizes
  reserved : ∀ c, (s'.reserved cfg c : ℤ) = s.reserved cfg c
    + (if c = contract then cfg.storageDepositPerByte * n else 0)
    - if c = origin then cfg.storageDepositPerByte * n else 0

variable {cfg origin}

theorem moveToContract_shifted {contract : EvmAddress} {n : ℕ} {r r' : Reserves A}
    (hn : n ≤ r.reserved (cfg.accountId origin))
    (h : moveToContract cfg origin contract n r = .ok r') :
    Reserves.Shifted (cfg.accountId origin) (cfg.accountId contract) n r r' := by
  intro a
  unfold moveToContract at h
  split at h
  · rename_i r₁ htransfer
    have hunreserved := Reserves.unreserve_reserved (cfg.accountId origin) n r a
    rw [Nat.min_eq_left hn] at hunreserved
    have hreserved := Reserves.reserve_reserved h a
    rw [Reserves.transfer_reserved htransfer] at hreserved
    omega
  · cases h

/-- A covered charge shifts the deposit of the net bytes, one way or the other. -/
theorem moveDeposit_reserved {m : StorageMeter} {s : Chain A} {r : Reserves A}
    (hcovered : Covered cfg origin m s) (hne : m.selfUsed ≠ m.selfRefunded)
    (h : moveDeposit cfg origin m.contract m.selfUsed m.selfRefunded s.currency = .ok r)
    (c : EvmAddress) :
    (r.reserved (cfg.accountId c) : ℤ) = s.reserved cfg c
      + (if c = m.contract then cfg.storageDepositPerByte * m.selfNet else 0)
      - if c = origin then cfg.storageDepositPerByte * m.selfNet else 0 := by
  obtain ⟨hcontract, horigin, hreserve⟩ := hcovered.resolve_left hne
  unfold moveDeposit at h
  split at h
  · rename_i hlt
    have hshift := moveToContract_shifted horigin h (cfg.accountId c)
    have hdeposit : (deposit cfg (m.selfUsed - m.selfRefunded) : ℤ)
        = cfg.storageDepositPerByte * m.selfNet := by
      simp only [deposit, StorageMeter.selfNet, Nat.cast_mul, Nat.cast_sub hlt.le]
    simp only [cfg.accountId_injective.eq_iff] at hshift
    simp only [Chain.reserved] at *
    split_ifs at * <;> omega
  · rename_i hle
    have hne' : cfg.accountId m.contract ≠ cfg.accountId origin :=
      fun he => hcontract (cfg.accountId_injective he)
    have hshift := Reserves.repatriateReserved_shifted hne' hreserve h (cfg.accountId c)
    have hdeposit : (deposit cfg (m.selfRefunded - m.selfUsed) : ℤ)
        = -(cfg.storageDepositPerByte * m.selfNet) := by
      simp only [deposit, StorageMeter.selfNet, Nat.cast_mul, Nat.cast_sub (not_lt.mp hle)]
      rw [← mul_neg, neg_sub]
    simp only [cfg.accountId_injective.eq_iff] at hshift
    simp only [Chain.reserved] at *
    split_ifs at * <;> omega

/-- **A covered charge moves the whole deposit.** -/
theorem chargeStorage_moved {m : StorageMeter} {s s' : Chain A} (hcovered : Covered cfg origin m s)
    (h : chargeStorage cfg origin m.contract m.selfUsed m.selfRefunded s = .ok s') :
    Moved cfg origin m.contract m.selfNet s s' := by
  unfold chargeStorage at h
  split at h
  · rename_i heq
    cases h
    refine ⟨rfl, fun c => ?_⟩
    simp [StorageMeter.selfNet, heq]
  · rename_i hne
    split at h
    · rename_i r hmoved
      cases h
      exact ⟨rfl, moveDeposit_reserved hcovered hne hmoved⟩
    · cases h

/-- **A covered charge keeps the law**: the frame's own bytes become booked ones. -/
theorem Law.charge (h : Law cfg origin base limit b (f :: outer) s)
    (hcovered : Covered cfg origin f.meter s)
    (hcharge : chargeStorage cfg origin f.meter.contract f.meter.selfUsed f.meter.selfRefunded s
      = .ok s') :
    Law cfg origin base limit (b + f.meter.selfNet)
      (bookAll f.meter.selfUsed f.meter.selfRefunded outer) s' := by
  obtain ⟨hsizes, hmoved⟩ := chargeStorage_moved hcovered hcharge
  have hsize : ∀ c, s'.storageSize c = s.storageSize c := fun c => by
    rw [Chain.storageSize, hsizes, Chain.storageSize]
  refine ⟨?_, fun c hc => ?_, ?_⟩
  · have hpaid : (if origin = f.meter.contract
        then cfg.storageDepositPerByte * f.meter.selfNet else 0) = 0 := by
      obtain heq | ⟨hne, -⟩ := hcovered
      · simp [StorageMeter.selfNet, heq]
      · simp [Ne.symm hne]
    rw [hmoved, hpaid, h.origin_reserved, if_pos rfl]
    linear_combination
  · rw [hmoved, h.contract_reserved c hc, if_neg hc, hsize, pending_cons, pending_bookAll]
    by_cases hf : f.meter.contract = c
    · rw [if_pos hf, if_pos hf.symm]
      linear_combination
    · rw [if_neg hf, if_neg (Ne.symm hf)]
      linear_combination
  · rw [Chain.totalSize, hsizes, ← Chain.totalSize, h.total, pendingTotal_cons,
      pendingTotal_bookAll]
    omega

end Setheum.Evm
