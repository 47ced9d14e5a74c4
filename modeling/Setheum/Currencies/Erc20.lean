import Setheum.Evm.AccountMapping

/-!
# Reserves of ERC-20 currencies

An ERC-20 contract knows no reserves. What an account reserves of such a currency is moved to an
address that is hashed from the account's EVM address; what that address holds is the reserved
balance.

The contract is reached through a bridge, a parameter: it may do anything, fail at any time and
answer anything. A call that fails leaves the contract as it was.
-/

set_option autoImplicit false

namespace Setheum.Currencies

open BigEndian EvmAccounts

structure InvokeContext where
  contract : EvmAddress
  /-- The account the contract is called from. -/
  sender : EvmAddress
  /-- The account that pays for storage. -/
  origin : EvmAddress

/-- Calls of token contracts. -/
structure EVMBridge (T : Type) where
  balanceOf : InvokeContext → EvmAddress → T → Option ℕ
  transfer : InvokeContext → EvmAddress → ℕ → T → Option T

structure Config (T : Type) where
  params : EvmAccounts.Params
  bridge : EVMBridge T
  blake2_256 : List UInt8 → BitVec 256

/-- The EVM addresses of accounts and the state of the contracts. -/
structure State (T : Type) where
  maps : Maps
  token : T

inductive Error
  | EvmAccountNotFound
  | BalanceTooLow
  | evmBridge
  deriving DecidableEq, Repr

inductive BalanceStatus
  | Free
  | Reserved
  deriving DecidableEq, Repr

abbrev CurrenciesM (T : Type) := Dispatch Error (State T)

variable {T : Type} (cfg : Config T)

/-- The bytes `erc20:`. -/
def erc20Prefix : List UInt8 := [0x65, 0x72, 0x63, 0x32, 0x30, 0x3a]

/-- The first 20 bytes of the hash of the address after `erc20:`. -/
def reserveAddress (address : EvmAddress) : EvmAddress :=
  (cfg.blake2_256 (erc20Prefix ++ toBytes 20 address.toNat)).extractLsb' 96 160

/-! ## Reading balances -/

/-- What the contract says an address holds; an error counts as nothing. -/
def balanceOf (contract address : EvmAddress) (s : State T) : ℕ :=
  (cfg.bridge.balanceOf ⟨contract, 0, 0⟩ address s.token).getD 0

def freeBalance (contract : EvmAddress) (who : AccountId) (s : State T) : ℕ :=
  match s.maps.getEvmAddress who with
  | some address => balanceOf cfg contract address s
  | none => 0

def reservedBalance (contract : EvmAddress) (who : AccountId) (s : State T) : ℕ :=
  match s.maps.getEvmAddress who with
  | some address => balanceOf cfg contract (reserveAddress cfg address) s
  | none => 0

def ensureCanWithdraw (contract : EvmAddress) (who : AccountId) (amount : ℕ) :
    CurrenciesM T Unit := do
  let s ← get
  let address ← Dispatch.okOr (s.maps.getEvmAddress who) .EvmAccountNotFound
  Dispatch.ensure (amount ≤ balanceOf cfg contract address s) .BalanceTooLow

def canReserve (contract : EvmAddress) (who : AccountId) (value : ℕ) (s : State T) : Bool :=
  Dispatch.succeeds (ensureCanWithdraw cfg contract who value) s

/-! ## Reserving -/

def bridgeTransfer (context : InvokeContext) (dest : EvmAddress) (value : ℕ) :
    CurrenciesM T Unit :=
  Dispatch.onComponent State.token (fun t s => { s with token := t }) (fun _ => .evmBridge)
    fun t => (cfg.bridge.transfer context dest value t).elim (.error ()) .ok

def getOrCreateEvmAddress (who : AccountId) : CurrenciesM T EvmAddress := do
  let s ← get
  let (address, maps) := s.maps.getOrCreateEvmAddress cfg.params who
  set { s with maps := maps }
  pure address

def reserve (contract : EvmAddress) (who : AccountId) (value : ℕ) : CurrenciesM T Unit := do
  if value = 0 then pure ()
  else
    let s ← get
    let address ← Dispatch.okOr (s.maps.getEvmAddress who) .EvmAccountNotFound
    bridgeTransfer cfg ⟨contract, address, address⟩ (reserveAddress cfg address) value

/-- Unreserve what there is of a value; what is left of the value. If the transfer fails, all of it
is. -/
def unreserve (contract : EvmAddress) (who : AccountId) (value : ℕ) : CurrenciesM T ℕ := do
  if value = 0 then pure value
  else
    let s ← get
    match s.maps.getEvmAddress who with
    | some address =>
        let sender := reserveAddress cfg address
        let actual := min (balanceOf cfg contract sender s) value
        let outcome ← Dispatch.attempt
          (bridgeTransfer cfg ⟨contract, sender, address⟩ address actual)
        match outcome with
        | .ok _ => pure (value - actual)
        | .error _ => pure value
    | none => pure value

/-- Move what there is of a reserved value to the free or the reserved balance of the beneficiary,
which is given an EVM address if it has none; what is left of the value. -/
def repatriateReserved (contract : EvmAddress) (slashed beneficiary : AccountId) (value : ℕ)
    (status : BalanceStatus) : CurrenciesM T ℕ := do
  if value = 0 then pure value
  else if slashed = beneficiary then
    match status with
    | .Free => unreserve cfg contract slashed value
    | .Reserved => do
        let s ← get
        pure (value - reservedBalance cfg contract slashed s)
  else
    let s ← get
    let slashedAddress ← Dispatch.okOr (s.maps.getEvmAddress slashed) .EvmAccountNotFound
    let beneficiaryAddress ← getOrCreateEvmAddress cfg beneficiary
    let slashedReserveAddress := reserveAddress cfg slashedAddress
    let actual := min (balanceOf cfg contract slashedReserveAddress s) value
    let dest := match status with
      | .Free => beneficiaryAddress
      | .Reserved => reserveAddress cfg beneficiaryAddress
    bridgeTransfer cfg ⟨contract, slashedReserveAddress, slashedAddress⟩ dest actual
    pure (value - actual)

/-! ## Calls -/

inductive Call
  | reserve (who : AccountId) (value : ℕ)
  | unreserve (who : AccountId) (value : ℕ)
  | repatriateReserved (slashed beneficiary : AccountId) (value : ℕ) (status : BalanceStatus)

/-- The accounts that a call names. -/
def Call.accounts : Call → List AccountId
  | .reserve who _ => [who]
  | .unreserve who _ => [who]
  | .repatriateReserved slashed beneficiary _ _ => [slashed, beneficiary]

/-- A call on the currency of a contract. What it leaves of its value is nothing when it
reserves. -/
def Call.call (contract : EvmAddress) : Call → CurrenciesM T ℕ
  | .reserve who value => do
      Currencies.reserve cfg contract who value
      pure 0
  | .unreserve who value => Currencies.unreserve cfg contract who value
  | .repatriateReserved slashed beneficiary value status =>
      Currencies.repatriateReserved cfg contract slashed beneficiary value status

/-- The state after a call; one that fails keeps what it wrote. -/
def step (contract : EvmAddress) (s : State T) (c : Call) : State T :=
  Dispatch.commit (c.call cfg contract) s

end Setheum.Currencies
