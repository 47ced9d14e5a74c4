import Setheum.Evm.StorageMeter
import Setheum.Lib.Dispatch

/-!
# Accounts and codes of the EVM

The storage of the EVM pallet and the functions that read and write it outside of any frame. An
account has a nonce and may host a contract, which names its code by a hash. Codes are stored
once for all contracts that share them, under a count of references.

Keccak-256 and RLP, the address mapping, the removal of accounts that a change of balances leaves
empty, and the other pallets' state, are parameters.
-/

set_option autoImplicit false

namespace Setheum.Evm

open StorageMap Dispatch

abbrev Code := List UInt8

structure ContractInfo where
  codeHash : H256
  maintainer : EvmAddress
  deployed : Bool
  deriving DecidableEq, Repr

structure AccountInfo where
  nonce : ℕ
  contractInfo : Option ContractInfo
  developerDeposit : Option ℕ
  deriving DecidableEq, Repr

def AccountInfo.new (nonce : ℕ) (contractInfo : Option ContractInfo) : AccountInfo :=
  ⟨nonce, contractInfo, none⟩

structure CodeInfo where
  codeSize : ℕ
  refCount : ℕ
  deriving DecidableEq, Repr

/-- The chain, with the accounts and codes of the EVM and the state of the other pallets. -/
structure World (A N : Type) extends Chain A where
  accounts : Map EvmAddress AccountInfo
  codes : Map H256 Code
  codeInfos : Map H256 CodeInfo
  networkContractIndex : ℕ
  pallets : N

/-- What becomes of an account that loses one of its providers. -/
inductive DecRefStatus
  | exists
  | reaped
  | consumerRemaining
  deriving DecidableEq, Repr

/-- What the EVM pallet is configured with. `reaped` lists the accounts that go when balances
change; an account that hosts a contract has a provider of its own until the contract is gone. -/
structure Params (A N : Type) extends Config A where
  keccak256 : List UInt8 → H256
  rlp : EvmAddress → ℕ → List UInt8
  evmAddress : A → Option EvmAddress
  defaultEvmAddress : A → EvmAddress
  reaped : Reserves A → Reserves A → List A
  reaped_self : ∀ r, reaped r r = []
  decProviders : A → Reserves A → N → DecRefStatus
  transferAll : A → A → Reserves A → N → Option (Reserves A × N)
  networkContractSource : EvmAddress
  treasuryAccount : A
  deploymentFee : ℕ
  developerDepositAmount : ℕ

inductive Error
  | AddressNotMapped
  | ContractNotFound
  | NoPermission
  | ContractDevelopmentNotEnabled
  | ContractDevelopmentAlreadyEnabled
  | ContractAlreadyDeployed
  | ContractExceedsMaxCodeSize
  | ConflictContractAddress
  | ConsumerRemaining
  | transferAll
  | finish (e : FinishError)
  | currency (e : Reserves.Error)
  deriving DecidableEq, Repr

/-- Reference counts are 32 bits wide. -/
def maxRefCount : ℕ := 4294967295

/-! ## Addresses -/

/-- The bytes of a number, most significant first. -/
def bigEndian (n x : ℕ) : List UInt8 :=
  (List.range n).map fun i => UInt8.ofNat (x / 256 ^ (n - 1 - i) % 256)

inductive CreateScheme
  | create2 (caller : EvmAddress) (codeHash salt : H256)
  | legacy (caller : EvmAddress)
  | fixed (address : EvmAddress)

/-- Whether an address starts with `SYSTEM_CONTRACT_ADDRESS_PREFIX`, eleven zero bytes. -/
def isSystemContract (address : EvmAddress) : Bool := address.toNat < 256 ^ 9

variable {A N : Type}

namespace World

variable (w : World A N)

/-- The contract that an address hosts. -/
def contractInfo (address : EvmAddress) : Option ContractInfo :=
  (w.accounts.lookup address).bind AccountInfo.contractInfo

def nonce (address : EvmAddress) : ℕ := (w.accounts.lookup address).elim 0 AccountInfo.nonce

/-- The account of an address, a new one where there is none. -/
def accountInfo (address : EvmAddress) : AccountInfo :=
  (w.accounts.lookup address).getD (.new 0 none)

def putAccount (address : EvmAddress) (info : AccountInfo) : World A N :=
  { w with accounts := w.accounts.insert address info }

def withChain (s : Chain A) : World A N := { w with toChain := s }

def incNonce (address : EvmAddress) : World A N :=
  w.putAccount address
    { w.accountInfo address with nonce := (w.accountInfo address).nonce + 1 }

variable (p : Params A N)

def createAddress (scheme : CreateScheme) : Option EvmAddress :=
  let address : EvmAddress :=
    match scheme with
    | .create2 caller codeHash salt =>
        (p.keccak256 (0xff :: (bigEndian 20 caller.toNat ++ bigEndian 32 salt.toNat
          ++ bigEndian 32 codeHash.toNat))).setWidth 160
    | .legacy caller => (p.keccak256 (p.rlp caller (w.nonce caller))).setWidth 160
    | .fixed address => address
  if isSystemContract address then none else some address

def isDeveloperOrContract (caller : EvmAddress) : Bool :=
  match w.accounts.lookup caller with
  | some info => info.contractInfo.isSome || info.developerDeposit.isSome
  | none => false

def canCallContract (address caller : EvmAddress) : Bool :=
  match w.contractInfo address with
  | some contract =>
      contract.deployed || contract.maintainer == caller || w.isDeveloperOrContract caller
  | none => true

/-! ## Codes -/

/-- One more reference to a code, which is stored with the first one. -/
def referenceCode (code : Code) : World A N :=
  match w.codeInfos.lookup (p.keccak256 code) with
  | some info =>
      { w with
        codeInfos := w.codeInfos.insert (p.keccak256 code)
          { info with refCount := min (info.refCount + 1) maxRefCount } }
  | none =>
      { w with
        codeInfos := w.codeInfos.insert (p.keccak256 code) ⟨code.length, 1⟩
        codes := w.codes.insert (p.keccak256 code) code }

/-- One reference less to a code, which goes with the last one. -/
def dereferenceCode (codeHash : H256) : World A N :=
  match w.codeInfos.lookup codeHash with
  | some info =>
      if info.refCount - 1 = 0 then
        { w with codeInfos := w.codeInfos.erase codeHash, codes := w.codes.erase codeHash }
      else
        { w with
          codeInfos := w.codeInfos.insert codeHash { info with refCount := info.refCount - 1 } }
  | none => w

/-- A new contract at an address; nothing is asked about a contract that is there already. -/
def onContractInitialization (address maintainer : EvmAddress) (code : Code) :
    Option (World A N) :=
  if p.maxCodeSize < code.length then none
  else
    let w₁ :=
      w.withChain (w.toChain.growContract address (code.length + p.newContractExtraBytes))
    let w₂ := w₁.referenceCode p code
    some (w₂.putAccount address
      { w₂.accountInfo address with
        contractInfo := some ⟨p.keccak256 code, maintainer, false⟩ })

/-! ## Accounts that go -/

/-- `remove_account`, for an account that is killed. -/
def removeAccount (address : EvmAddress) : World A N :=
  let w₁ :=
    match w.contractInfo address with
    | some contract => w.dereferenceCode contract.codeHash
    | none => w
  { w₁ with accounts := w₁.accounts.erase address }

/-- `on_killed_account`, for the address that is mapped and for the default one. -/
def onKilledAccount (who : A) : World A N :=
  let w₁ :=
    match p.evmAddress who with
    | some address => w.removeAccount address
    | none => w
  w₁.removeAccount (p.defaultEvmAddress who)

/-- Take over a chain whose balances changed, and kill the accounts that go with that. -/
def moved (s : Chain A) : World A N :=
  (p.reaped w.currency s.currency).foldl (fun w who => w.onKilledAccount p who) (w.withChain s)

end World

/-! ## Calls -/

variable [DecidableEq A] (p : Params A N)

/-- Move a contract's free balances; its own provider keeps the account. -/
def transferAll (address dest : EvmAddress) : Dispatch Error (World A N) Unit := do
  let w ← get
  let (currency, pallets) ←
    okOr (p.transferAll (p.accountId address) (p.accountId dest) w.currency w.pallets) .transferAll
  set { w with currency := currency, pallets := pallets }

/-- Drop the provider that a contract was to its account. -/
def decProviders (address : EvmAddress) : Dispatch Error (World A N) Unit := do
  let w ← get
  match p.decProviders (p.accountId address) w.currency w.pallets with
  | .exists => pure ()
  | .reaped => set (w.onKilledAccount p (p.accountId address))
  | .consumerRemaining => throw .ConsumerRemaining

def removeContract (address dest : EvmAddress) : Dispatch Error (World A N) ℕ :=
  transactional do
    let w ← get
    let info ← okOr (w.accounts.lookup address) .ContractNotFound
    let contract ← okOr info.contractInfo .ContractNotFound
    transferAll p address dest
    modify (·.dereferenceCode contract.codeHash)
    modify fun w =>
      { w with accountStorages := restrict (fun k => k.1 ≠ address) w.accountStorages }
    let w ← get
    set ({ w with contractStorageSizes := w.contractStorageSizes.erase address }.putAccount
      address { info with contractInfo := none })
    decProviders p address
    pure (w.storageSize address)

/-- A currency operation, with the accounts that go. -/
def onCurrency (f : Reserves A → Except Reserves.Error (Reserves A)) :
    Dispatch Error (World A N) Unit := do
  let w ← get
  match f w.currency with
  | .ok r => set (w.moved p { w.toChain with currency := r })
  | .error e => throw (.currency e)

def doSelfdestruct (who : A) (maintainer contract : EvmAddress) :
    Dispatch Error (World A N) Unit := do
  let w ← get
  let info ← okOr (w.contractInfo contract) .ContractNotFound
  ensure (info.maintainer = maintainer) .NoPermission
  ensure (info.deployed = false) .ContractAlreadyDeployed
  let storage ← removeContract p contract maintainer
  onCurrency p (·.repatriateFree p.rules (p.accountId contract) who (deposit p.toConfig storage))

/-- Change the contract of an account. -/
def mutateContract (contract : EvmAddress) (f : ContractInfo → Except Error ContractInfo) :
    Dispatch Error (World A N) Unit := do
  let w ← get
  let info ← okOr (w.accounts.lookup contract) .ContractNotFound
  let before ← okOr info.contractInfo .ContractNotFound
  let after ← Dispatch.ofExcept (f before)
  set (w.putAccount contract { info with contractInfo := some after })

def doTransferMaintainer (who : A) (contract newMaintainer : EvmAddress) :
    Dispatch Error (World A N) Unit :=
  mutateContract contract fun info =>
    match p.evmAddress who with
    | none => .error .AddressNotMapped
    | some maintainer =>
        if info.maintainer = maintainer then .ok { info with maintainer := newMaintainer }
        else .error .NoPermission

def markDeployed (contract : EvmAddress) (maintainer : Option EvmAddress) :
    Dispatch Error (World A N) Unit :=
  mutateContract contract fun info =>
    if maintainer.any (fun m => info.maintainer != m) then .error .NoPermission
    else if info.deployed then .error .ContractAlreadyDeployed
    else .ok { info with deployed := true }

end Setheum.Evm
