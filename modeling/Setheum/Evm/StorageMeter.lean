import Setheum.Lib.Reserves
import Setheum.Lib.Run
import Setheum.Lib.StorageMap
import Setheum.Primitives.Currency

/-!
# The storage meter of the EVM

Every byte of contract storage is backed by a deposit that the origin of a transaction makes and
that is reserved on the contract. A transaction reserves its whole storage limit up front. Every
frame, call or creation, counts the bytes it uses and frees on a meter of its own; a frame that
finishes has the deposit of its net bytes moved and adds its counts to the meters of all frames
around it. A frame that is rolled back restores the chain it found, but not the meters.

A meter turns into an error only when it is finished, after which nothing reads it, so meters
carry no result here. Counts are natural numbers, the bounds of `u32` are left out.
-/

set_option autoImplicit false

namespace Setheum.Evm

open StorageMap

abbrev H256 := BitVec 256

/-- The bytes a storage slot is charged for. -/
def STORAGE_SIZE : ℕ := 64

/-! ## Meters -/

structure StorageMeter where
  contract : EvmAddress
  limit : ℕ
  totalUsed : ℕ
  selfUsed : ℕ
  totalRefunded : ℕ
  selfRefunded : ℕ
  deriving DecidableEq

namespace StorageMeter

def new (contract : EvmAddress) (limit : ℕ) : StorageMeter := ⟨contract, limit, 0, 0, 0, 0⟩

def availableStorage (m : StorageMeter) : ℕ := m.limit + m.totalRefunded - m.totalUsed

/-- The meter of a frame entered from the frame of this meter. -/
def childMeter (m : StorageMeter) (contract : EvmAddress) : StorageMeter :=
  new contract m.availableStorage

def usedStorage (m : StorageMeter) : ℤ := m.totalUsed - m.totalRefunded

def charge (m : StorageMeter) (storage : ℕ) : StorageMeter :=
  { m with totalUsed := m.totalUsed + storage, selfUsed := m.selfUsed + storage }

def refund (m : StorageMeter) (storage : ℕ) : StorageMeter :=
  { m with totalRefunded := m.totalRefunded + storage
           selfRefunded := m.selfRefunded + storage }

/-- What `charge_storage` of a frame below does to this meter. -/
def book (m : StorageMeter) (used refunded : ℕ) : StorageMeter :=
  { m with totalRefunded := m.totalRefunded + refunded, totalUsed := m.totalUsed + used }

/-- The limit that `finish` hands back. -/
def newLimit (m : StorageMeter) : ℕ :=
  m.limit + m.selfUsed + m.totalRefunded - m.totalUsed - m.selfRefunded

end StorageMeter

/-! ## The chain -/

/-- The part of the chain's storage that deposits are about. -/
structure Chain (A : Type) where
  currency : Reserves A
  contractStorageSizes : Map EvmAddress ℕ
  accountStorages : Map (EvmAddress × H256) H256

/-- Addresses map to accounts, no two of them to one account. -/
structure Config (A : Type) where
  rules : Reserves.Rules A
  accountId : EvmAddress → A
  accountId_injective : Function.Injective accountId
  storageDepositPerByte : ℕ
  newContractExtraBytes : ℕ
  maxCodeSize : ℕ

variable {A : Type}

def Chain.storageSize (s : Chain A) (c : EvmAddress) : ℕ := get 0 s.contractStorageSizes c

/-- `update_contract_storage_size`, growing and shrinking. -/
def Chain.growContract (s : Chain A) (c : EvmAddress) (n : ℕ) : Chain A :=
  { s with contractStorageSizes := s.contractStorageSizes.insert c (s.storageSize c + n) }

def Chain.shrinkContract (s : Chain A) (c : EvmAddress) (n : ℕ) : Chain A :=
  { s with contractStorageSizes := s.contractStorageSizes.insert c (s.storageSize c - n) }

def Chain.storage (s : Chain A) (c : EvmAddress) (index : H256) : H256 :=
  get 0 s.accountStorages (c, index)

/-- Write a slot; a slot that holds the default value is removed. -/
def Chain.write (s : Chain A) (c : EvmAddress) (index value : H256) : Chain A :=
  { s with accountStorages := store 0 s.accountStorages (c, index) value }

variable [DecidableEq A] (cfg : Config A) (origin : EvmAddress)

/-! ## The handler of the outermost meter -/

/-- The deposit of a number of bytes. -/
def deposit (storage : ℕ) : ℕ := cfg.storageDepositPerByte * storage

def reserveStorage (limit : ℕ) (s : Chain A) : Except Reserves.Error (Chain A) :=
  if limit = 0 then .ok s
  else
    match s.currency.reserve cfg.rules (cfg.accountId origin) (deposit cfg limit) with
    | .ok r => .ok { s with currency := r }
    | .error e => .error e

def unreserveStorage (limit used refunded : ℕ) (s : Chain A) : Chain A :=
  let unused := limit + refunded - used
  if unused = 0 then s
  else { s with currency := s.currency.unreserve (cfg.accountId origin) (deposit cfg unused) }

/-- Move a deposit from the origin to a contract. The contract's account may be new, which
`repatriateReserved` would not allow. -/
def moveToContract (contract : EvmAddress) (amount : ℕ) (r : Reserves A) :
    Except Reserves.Error (Reserves A) :=
  match (r.unreserve (cfg.accountId origin) amount).transfer cfg.rules (cfg.accountId origin)
      (cfg.accountId contract) amount with
  | .ok r => r.reserve cfg.rules (cfg.accountId contract) amount
  | .error e => .error e

/-- Move a deposit to the contract or back, without the case that nothing is to be moved. -/
def moveDeposit (contract : EvmAddress) (used refunded : ℕ) (r : Reserves A) :
    Except Reserves.Error (Reserves A) :=
  if refunded < used then moveToContract cfg origin contract (deposit cfg (used - refunded)) r
  else
    r.repatriateReserved cfg.rules (cfg.accountId contract) (cfg.accountId origin)
      (deposit cfg (refunded - used))

def chargeStorage (contract : EvmAddress) (used refunded : ℕ) (s : Chain A) :
    Except Reserves.Error (Chain A) :=
  if used = refunded then .ok s
  else
    match moveDeposit cfg origin contract used refunded s.currency with
    | .ok r => .ok { s with currency := r }
    | .error e => .error e

/-! ## Frames -/

/-- A frame under way, with the chain it was entered in. -/
structure Frame (A : Type) where
  meter : StorageMeter
  isStatic : Bool
  creates : Bool
  snapshot : Chain A

inductive FinishError
  | OutOfStorage
  | currency (e : Reserves.Error)
  deriving DecidableEq, Repr

/-- Charge the frames around a finishing one, innermost first, and then the origin. -/
def chargeThrough (contract : EvmAddress) (used refunded : ℕ) (s : Chain A) :
    List (Frame A) → List (Frame A) × Except Reserves.Error (Chain A)
  | [] => ([], chargeStorage cfg origin contract used refunded s)
  | f :: outer =>
      let (outer', charged) := chargeThrough contract used refunded s outer
      ({ f with meter := f.meter.book used refunded } :: outer', charged)

/-- Finish a meter inside the given frames; only the outermost one hands the limit back. -/
def StorageMeter.finish (m : StorageMeter) (outer : List (Frame A)) (s : Chain A) :
    List (Frame A) × Except FinishError (Chain A) :=
  if m.limit < m.totalUsed - m.totalRefunded then (outer, .error .OutOfStorage)
  else
    match chargeThrough cfg origin m.contract m.selfUsed m.selfRefunded s outer with
    | (outer', .ok s') =>
        if outer.isEmpty then
          (outer', .ok (unreserveStorage cfg origin m.newLimit m.selfUsed m.selfRefunded s'))
        else (outer', .ok s')
    | (outer', .error e) => (outer', .error (.currency e))

/-! ## Transactions -/

inductive Status
  | running
  | committed
  | rolledBack
  deriving DecidableEq, Repr

/-- A transaction under way: the chain and the frames, innermost first. -/
structure Execution (A : Type) where
  chain : Chain A
  frames : List (Frame A)
  status : Status

structure Transfer where
  source : EvmAddress
  target : EvmAddress
  value : ℕ

/-- What can happen next in the innermost frame. It ends when its code succeeds, with an output of
some length, or for any other reason is rolled back. -/
inductive Act
  | setStorage (index value : H256)
  | call (contract : EvmAddress) (transfer : Option Transfer) (isStatic : Bool)
  | create (contract : EvmAddress) (value : ℕ)
  | succeed (outLen : ℕ)
  | rollback

/-- A write counts a slot that is added or removed, on the contract and on the frame's meter. It
fails in a static frame. -/
def setStorage (f : Frame A) (index value : H256) (s : Chain A) : Option (Frame A × Chain A) :=
  if f.isStatic then none
  else if value = 0 ∧ s.storage f.meter.contract index ≠ 0 then
    some ({ f with meter := f.meter.refund STORAGE_SIZE },
      (s.write f.meter.contract index value).shrinkContract f.meter.contract STORAGE_SIZE)
  else if value ≠ 0 ∧ s.storage f.meter.contract index = 0 then
    some ({ f with meter := f.meter.charge STORAGE_SIZE },
      (s.write f.meter.contract index value).growContract f.meter.contract STORAGE_SIZE)
  else some (f, s.write f.meter.contract index value)

def transferValue (t : Transfer) (s : Chain A) : Except Reserves.Error (Chain A) :=
  match s.currency.transfer cfg.rules (cfg.accountId t.source) (cfg.accountId t.target) t.value with
  | .ok r => .ok { s with currency := r }
  | .error e => .error e

/-- A new contract is charged for its code and the extra bytes; its code can be too large. -/
def onContractInitialization (codeSize : ℕ) (f : Frame A) (s : Chain A) :
    Option (Frame A × Chain A) :=
  if cfg.maxCodeSize < codeSize then none
  else
    some ({ f with meter := f.meter.charge (codeSize + cfg.newContractExtraBytes) },
      s.growContract f.meter.contract (codeSize + cfg.newContractExtraBytes))

/-- Leave a frame and drop what it did to the chain. -/
def leaveRolledBack (f : Frame A) (outer : List (Frame A)) : Execution A :=
  ⟨f.snapshot, outer, if outer.isEmpty then .rolledBack else .running⟩

/-- Leave a frame by finishing its meter. -/
def leaveCommitted (f : Frame A) (outer : List (Frame A)) (s : Chain A) : Execution A :=
  match f.meter.finish cfg origin outer s with
  | (outer', .ok s') => ⟨s', outer', if outer.isEmpty then .committed else .running⟩
  | (outer', .error _) => leaveRolledBack f outer'

/-- `run_sub_transaction` up to the code of the new frame, which is rolled back at once when the
value cannot be transferred. -/
def enter (contract : EvmAddress) (transfer : Option Transfer) (isStatic creates : Bool)
    (f : Frame A) (outer : List (Frame A)) (s : Chain A) : Execution A :=
  let transferred : Except Reserves.Error (Chain A) :=
    transfer.elim (.ok s) fun t => transferValue cfg t s
  match transferred with
  | .ok s' => ⟨s', ⟨f.meter.childMeter contract, isStatic, creates, s⟩ :: f :: outer, .running⟩
  | .error _ => ⟨s, f :: outer, .running⟩

/-- One act of a transaction; after its end nothing happens. -/
def step (e : Execution A) (act : Act) : Execution A :=
  match e.frames with
  | [] => e
  | f :: outer =>
      match act with
      | .setStorage index value =>
          match setStorage f index value e.chain with
          | some (f', s') => ⟨s', f' :: outer, .running⟩
          | none => leaveRolledBack f outer
      | .call contract transfer isStatic =>
          if f.isStatic && transfer.isSome then e
          else enter cfg contract transfer (f.isStatic || isStatic) false f outer e.chain
      | .create contract value =>
          if f.isStatic then e
          else
            enter cfg contract (some ⟨f.meter.contract, contract, value⟩) f.isStatic true f outer
              e.chain
      | .succeed outLen =>
          if f.creates then
            match onContractInitialization cfg outLen f e.chain with
            | some (f', s') => leaveCommitted cfg origin f' outer s'
            | none => leaveRolledBack f outer
          else leaveCommitted cfg origin f outer e.chain
      | .rollback => leaveRolledBack f outer

/-- `run_transaction` up to the code of the outermost frame: reserve the storage limit, then
transfer the value. -/
def begin (contract : EvmAddress) (transfer : Transfer) (creates : Bool) (storageLimit : ℕ)
    (s : Chain A) : Execution A :=
  match reserveStorage cfg origin storageLimit s with
  | .ok s' =>
      match transferValue cfg transfer s' with
      | .ok s'' => ⟨s'', [⟨StorageMeter.new contract storageLimit, false, creates, s⟩], .running⟩
      | .error _ => ⟨s, [], .rolledBack⟩
  | .error _ => ⟨s, [], .rolledBack⟩

end Setheum.Evm
