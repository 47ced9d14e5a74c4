import Setheum.Evm.Handler

/-!
# The calls of the EVM pallet

Everything that reaches the EVM from outside: the dispatchable calls, contract calls that other
pallets make, what other pallets do to balances and to their own state, and accounts that are
killed. A state is reached from a genesis state by any sequence of these.
-/

set_option autoImplicit false

namespace Setheum.Evm

open StorageMap Dispatch

/-- An operation, with the run of the code that it runs. -/
inductive Op (A N : Type)
  | call (sender target : EvmAddress) (value storageLimit : ℕ) (script : Script A N)
  | create (source : EvmAddress) (init : Code) (value storageLimit : ℕ) (script : Script A N)
  | create2 (source : EvmAddress) (init : Code) (salt : H256) (value storageLimit : ℕ)
      (script : Script A N)
  | createNetworkContract (init : Code) (value storageLimit : ℕ) (script : Script A N)
  | setCode (rootOrSigned : Option A) (contract : EvmAddress) (code : Code)
      (script : Script A N)
  | selfdestruct (who : A) (contract : EvmAddress)
  | transferMaintainer (who : A) (contract newMaintainer : EvmAddress)
  | deploy (who : A) (contract : EvmAddress)
  | deployFree (contract : EvmAddress)
  | enableContractDevelopment (who : A) (address : EvmAddress)
  | disableContractDevelopment (who : A)
  | execute (context : InvokeContext) (value storageLimit : ℕ) (mode : ExecutionMode)
      (script : Script A N)
  | pallets (change : Reserves A → N → Option (Reserves A × N))
  | killAccount (who : A)

variable {A N : Type} [DecidableEq A] (p : Params A N)

/-- The account that a new code is set from. -/
def setCodeSource (rootOrSigned : Option A) (info : ContractInfo) : Except Error EvmAddress :=
  match rootOrSigned with
  | none => .ok p.networkContractSource
  | some signer =>
      match p.evmAddress signer with
      | none => .error .AddressNotMapped
      | some maintainer =>
          if info.maintainer ≠ maintainer then .error .NoPermission
          else if info.deployed then .error .ContractAlreadyDeployed
          else .ok maintainer

/-- The storage limit of setting a code. -/
def SET_CODE_STORAGE_LIMIT : ℕ := 100000

/-- The creation runs while the account is being mutated: when it is done, the account that was
read before it is written back. -/
def doSetCode (rootOrSigned : Option A) (contract : EvmAddress) (code : Code)
    (run : EvmAddress → Interpreter A N) : Dispatch Error (World A N) Unit := do
  let w ← get
  let info ← okOr (w.accounts.lookup contract) .ContractNotFound
  let contractInfo ← okOr info.contractInfo .ContractNotFound
  let source ← Dispatch.ofExcept (setCodeSource p rootOrSigned contractInfo)
  when (p.keccak256 code ≠ contractInfo.codeHash) do
    ensure (code.length ≤ p.maxCodeSize) .ContractExceedsMaxCodeSize
    let _ ← Runner.innerCreate p (run source) source code 0 SET_CODE_STORAGE_LIMIT (some contract)
      none
    modify (·.putAccount contract info)

/-- The addresses of network contracts are numbered; the number is 64 bits wide. -/
def createNetworkContract (run : Interpreter A N) (init : Code) (value storageLimit : ℕ) :
    Dispatch Error (World A N) Unit := do
  let w ← get
  let address := BitVec.ofNat 160 w.networkContractIndex
  let _ ← Runner.innerCreate p run p.networkContractSource init value storageLimit (some address)
    none
  modify fun w => { w with networkContractIndex := min (w.networkContractIndex + 1) (2 ^ 64 - 1) }

def enableContractDevelopment (who : A) (address : EvmAddress) :
    Dispatch Error (World A N) Unit := do
  onCurrency p (·.reserve p.rules who p.developerDepositAmount)
  let w ← get
  ensure ((w.accountInfo address).developerDeposit = none) .ContractDevelopmentAlreadyEnabled
  set (w.putAccount address
    { w.accountInfo address with developerDeposit := some p.developerDepositAmount })

def disableContractDevelopment (who : A) : Dispatch Error (World A N) Unit := do
  let address ← okOr (p.evmAddress who) .AddressNotMapped
  let w ← get
  let info ← okOr (w.accounts.lookup address) .ContractDevelopmentNotEnabled
  let amount ← okOr info.developerDeposit .ContractDevelopmentNotEnabled
  set (w.putAccount address { info with developerDeposit := none })
  onCurrency p fun r => .ok (r.unreserve who amount)

def deploy (who : A) (contract : EvmAddress) : Dispatch Error (World A N) Unit := do
  let address ← okOr (p.evmAddress who) .AddressNotMapped
  onCurrency p (·.transfer p.rules who p.treasuryAccount p.deploymentFee)
  markDeployed contract (some address)

def dispatch : Op A N → Dispatch Error (World A N) Unit
  | .call sender target value storageLimit script => do
      let _ ← Runner.call p (exec p script sender false) sender sender target value storageLimit
  | .create source init value storageLimit script => do
      let _ ← Runner.innerCreate p (exec p script source false) source init value storageLimit
        none none
  | .create2 source init salt value storageLimit script => do
      let _ ← Runner.innerCreate p (exec p script source false) source init value storageLimit
        none (some salt)
  | .createNetworkContract init value storageLimit script =>
      createNetworkContract p (exec p script p.networkContractSource false) init value
        storageLimit
  | .setCode rootOrSigned contract code script =>
      transactional
        (doSetCode p rootOrSigned contract code fun source => exec p script source false)
  | .selfdestruct who contract =>
      transactional do
        let maintainer ← okOr (p.evmAddress who) .AddressNotMapped
        doSelfdestruct p who maintainer contract
  | .transferMaintainer who contract newMaintainer =>
      transactional (doTransferMaintainer p who contract newMaintainer)
  | .deploy who contract => transactional (deploy p who contract)
  | .deployFree contract => transactional (markDeployed contract none)
  | .enableContractDevelopment who address =>
      transactional (enableContractDevelopment p who address)
  | .disableContractDevelopment who => transactional (disableContractDevelopment p who)
  | .execute context value storageLimit mode script =>
      modify (execute p (exec p script context.origin false) context value storageLimit mode)
  | .pallets change => do
      let w ← get
      match change w.currency w.pallets with
      | some (currency, pallets) =>
          set { w.moved p { w.toChain with currency := currency } with pallets := pallets }
      | none => pure ()
  | .killAccount who => modify (·.onKilledAccount p who)

/-- What an operation leaves, whether it succeeds or fails. -/
def World.step (w : World A N) (op : Op A N) : World A N := commit (dispatch p op) w

/-! ## Genesis -/

structure GenesisAccount where
  nonce : ℕ
  code : Option Code
  storage : List (H256 × H256)

/-- Build one account; its code is what the init code returned, and what the chain starts with. -/
def World.buildAccount (w : World A N) (address : EvmAddress) (account : GenesisAccount) :
    Option (World A N) :=
  let w₁ := w.putAccount address (.new account.nonce none)
  match account.code with
  | none => some w₁
  | some code => do
      let w₂ ← w₁.onContractInitialization p address p.networkContractSource code
      match (markDeployed address none).run w₂ with
      | .ok _ w₃ =>
          some { w₃ with
            accountStorages := account.storage.foldl
              (fun m e => m.insert (address, e.1) e.2) w₃.accountStorages }
      | .error _ _ => none

/-- The state that the accounts of the genesis configuration, one for each address, are built
in. -/
def World.empty (currency : Reserves A) (pallets : N) (networkContractIndex : ℕ) : World A N where
  currency := currency
  contractStorageSizes := ∅
  accountStorages := ∅
  accounts := ∅
  codes := ∅
  codeInfos := ∅
  networkContractIndex := networkContractIndex
  pallets := pallets

def World.build (w : World A N) : List (EvmAddress × GenesisAccount) → Option (World A N)
  | [] => some w
  | (address, account) :: rest => (w.buildAccount p address account).bind (build · rest)

/-! ## A small chain -/

section Sample

/-- The account that creates, and an init code, `PUSH1 1 PUSH1 0 RETURN`, that returns the code
`STOP`. -/
def sampleSource : EvmAddress := 0x0101010101010101010101010101010101010101

def sampleInit : Code := [0x60, 0x01, 0x60, 0x00, 0xf3]

def sampleInitHash : H256 := 0x5e59e02549ba8e07ea50ebd4ed8e46ed3ef88ddfb158dda6108a036181bc9bad

/-- Where `create2` with salt zero puts the contract of that init code. -/
def sampleContract : EvmAddress := 0xfacd16855606e7ea9e14a4871eafdd30fda85576

/-- Keccak-256 on the inputs that the sample hashes. -/
def sampleKeccak (bytes : List UInt8) : H256 :=
  if bytes = [0x00] then 0xbc36789e7a1e281436464229828f817d6612f7b477d66591ff96a9e064bcc98a
  else if bytes = sampleInit then sampleInitHash
  else if bytes = 0xff :: (bigEndian 20 sampleSource.toNat ++ bigEndian 32 0
      ++ bigEndian 32 sampleInitHash.toNat) then
    0x89c331ae703ac423c5e87e98facd16855606e7ea9e14a4871eafdd30fda85576
  else 0

/-- Accounts are addresses, nothing is refused and no account goes. -/
def sampleParams : Params EvmAddress Unit where
  rules := Reserves.Rules.permissive
  accountId := id
  accountId_injective := Function.injective_id
  storageDepositPerByte := 10
  newContractExtraBytes := 100
  maxCodeSize := 61440
  keccak256 := sampleKeccak
  rlp _ _ := []
  evmAddress := some
  defaultEvmAddress := id
  reaped _ _ := []
  reaped_self _ := rfl
  decProviders _ _ _ := .exists
  transferAll a b r n := (r.transfer Reserves.Rules.permissive a b (r.free a)).toOption.map (·, n)
  networkContractSource := 0
  treasuryAccount := 0
  deploymentFee := 0
  developerDepositAmount := 0

/-- A chain without contracts. -/
def sampleWorld : World EvmAddress Unit :=
  .empty ⟨fun a => if a = sampleSource then 1000000 else 0, fun _ => 0⟩ () 0x2000000

/-- Create the sample's contract with `create2`. -/
def sampleCreate2 : Op EvmAddress Unit :=
  .create2 sampleSource sampleInit 0 0 1000 (.exit .succeed [0x00])

end Sample

end Setheum.Evm
