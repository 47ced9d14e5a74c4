import Setheum.Evm.World
import Setheum.Lib.BigEndian

/-!
# Precompiles

The addresses that run native code instead of a contract's. The standard ones compute a function
of their input. The others, which only system contracts may call, take an action from the first
bytes of the input: a query, which writes nothing, or a call of a pallet.
-/

set_option autoImplicit false

namespace Setheum.Evm

/-! ## Actions

The selectors of each precompile's actions are the first four bytes of the Keccak-256 hash of the
signature of a function. -/

namespace MultiCurrencyPrecompile

inductive Action
  | QueryName
  | QuerySymbol
  | QueryDecimals
  | QueryTotalIssuance
  | QueryBalance
  | Transfer
  deriving DecidableEq, Repr

def Action.tryFrom : ℕ → Option Action
  | 0x06fdde03 => some .QueryName
  | 0x95d89b41 => some .QuerySymbol
  | 0x313ce567 => some .QueryDecimals
  | 0x18160ddd => some .QueryTotalIssuance
  | 0x70a08231 => some .QueryBalance
  | 0xbeabacc8 => some .Transfer
  | _ => none

end MultiCurrencyPrecompile

namespace NFTPrecompile

inductive Action
  | QueryBalance
  | QueryOwner
  | Transfer
  deriving DecidableEq, Repr

def Action.tryFrom : ℕ → Option Action
  | 0x70a08231 => some .QueryBalance
  | 0xd9dad80d => some .QueryOwner
  | 0x411b252 => some .Transfer
  | _ => none

end NFTPrecompile

namespace StateRentPrecompile

inductive Action
  | QueryNewContractExtraBytes
  | QueryStorageDepositPerByte
  | QueryMaintainer
  | QueryDeveloperDeposit
  | QueryDeploymentFee
  | TransferMaintainer
  deriving DecidableEq, Repr

def Action.tryFrom : ℕ → Option Action
  | 0xa23e8b82 => some .QueryNewContractExtraBytes
  | 0x6e043998 => some .QueryStorageDepositPerByte
  | 0x06ad1355 => some .QueryMaintainer
  | 0x68a18855 => some .QueryDeveloperDeposit
  | 0xf2cff57f => some .QueryDeploymentFee
  | 0xee0d2e12 => some .TransferMaintainer
  | _ => none

end StateRentPrecompile

namespace OraclePrecompile

inductive Action
  | GetPrice
  deriving DecidableEq, Repr

def Action.tryFrom : ℕ → Option Action
  | 0x41976e09 => some .GetPrice
  | _ => none

end OraclePrecompile

namespace ScheduleCallPrecompile

inductive Action
  | Schedule
  | Cancel
  | Reschedule
  deriving DecidableEq, Repr

def Action.tryFrom : ℕ → Option Action
  | 0x64c91905 => some .Schedule
  | 0x93e32661 => some .Cancel
  | 0x28302f34 => some .Reschedule
  | _ => none

end ScheduleCallPrecompile

namespace DexPrecompile

inductive Action
  | GetLiquidityPool
  | GetLiquidityTokenAddress
  | GetSwapTargetAmount
  | GetSwapSupplyAmount
  | SwapWithExactSupply
  | SwapWithExactTarget
  | AddLiquidity
  | RemoveLiquidity
  deriving DecidableEq, Repr

def Action.tryFrom : ℕ → Option Action
  | 0xf4f31ede => some .GetLiquidityPool
  | 0xffd73c4a => some .GetLiquidityTokenAddress
  | 0x4d60beb1 => some .GetSwapTargetAmount
  | 0xdbcd19a2 => some .GetSwapSupplyAmount
  | 0x579baa18 => some .SwapWithExactSupply
  | 0x9782ac81 => some .SwapWithExactTarget
  | 0x67088d59 => some .AddLiquidity
  | 0x35315332 => some .RemoveLiquidity
  | _ => none

end DexPrecompile

/-- An action of one of the chain's own precompiles. -/
inductive PrecompileAction
  | multiCurrency (action : MultiCurrencyPrecompile.Action)
  | nft (action : NFTPrecompile.Action)
  | stateRent (action : StateRentPrecompile.Action)
  | oracle (action : OraclePrecompile.Action)
  | scheduleCall (action : ScheduleCallPrecompile.Action)
  | dex (action : DexPrecompile.Action)
  deriving DecidableEq, Repr

/-- Whether an action is a call of a pallet that writes. -/
def PrecompileAction.writes : PrecompileAction → Bool
  | .multiCurrency .Transfer => true
  | .nft .Transfer => true
  | .stateRent .TransferMaintainer => true
  | .scheduleCall _ => true
  | .dex .SwapWithExactSupply => true
  | .dex .SwapWithExactTarget => true
  | .dex .AddLiquidity => true
  | .dex .RemoveLiquidity => true
  | _ => false

/-! ## Input -/

def INPUT_BYTES_LENGTH : ℕ := 32

def FUNCTION_SELECTOR_LENGTH : ℕ := 4

/-- The selector of an input that is long enough to have one. -/
def Input.action (input : List UInt8) : Option ℕ :=
  if INPUT_BYTES_LENGTH + FUNCTION_SELECTOR_LENGTH ≤ input.length then
    some (BigEndian.ofBytes ((input.drop INPUT_BYTES_LENGTH).take FUNCTION_SELECTOR_LENGTH))
  else none

/-! ## Dispatch -/

def PRECOMPILE_ADDRESS_START : ℕ := 0x400

def PREDEPLOY_ADDRESS_START : ℕ := 0x800

def isSetheumPrecompile (address : EvmAddress) : Bool :=
  PRECOMPILE_ADDRESS_START ≤ address.toNat && address.toNat < PREDEPLOY_ADDRESS_START

/-- The standard precompiles: 1 to 4, and 128 to 130 for the nonstandard hashes. -/
def isEvmPrecompile (address : EvmAddress) : Bool :=
  address.toNat ∈ [1, 2, 3, 4, 128, 129, 130]

/-- `SystemContractsFilter`. -/
def isAllowed (caller : EvmAddress) : Bool := isSystemContract caller

/-- What a precompile is asked to do. -/
inductive Request
  | compute
  | refused
  | perform (action : PrecompileAction)
  deriving DecidableEq, Repr

/-- The action of an input, for one of the precompiles. -/
def Request.decode {α : Type} (tryFrom : ℕ → Option α) (wrap : α → PrecompileAction)
    (input : List UInt8) : Request :=
  match (Input.action input).bind tryFrom with
  | some action => .perform (wrap action)
  | none => .refused

/-- `AllPrecompiles::execute` up to the action; `none` where there is no precompile. -/
def AllPrecompiles.request (address : EvmAddress) (input : List UInt8) (caller : EvmAddress) :
    Option Request :=
  if isEvmPrecompile address then some .compute
  else if isSetheumPrecompile address && !isAllowed caller then some .refused
  else if address.toNat = PRECOMPILE_ADDRESS_START then
    some (.decode MultiCurrencyPrecompile.Action.tryFrom .multiCurrency input)
  else if address.toNat = PRECOMPILE_ADDRESS_START + 1 then
    some (.decode NFTPrecompile.Action.tryFrom .nft input)
  else if address.toNat = PRECOMPILE_ADDRESS_START + 2 then
    some (.decode StateRentPrecompile.Action.tryFrom .stateRent input)
  else if address.toNat = PRECOMPILE_ADDRESS_START + 3 then
    some (.decode OraclePrecompile.Action.tryFrom .oracle input)
  else if address.toNat = PRECOMPILE_ADDRESS_START + 4 then
    some (.decode ScheduleCallPrecompile.Action.tryFrom .scheduleCall input)
  else if address.toNat = PRECOMPILE_ADDRESS_START + 5 then
    some (.decode DexPrecompile.Action.tryFrom .dex input)
  else none

/-- A transfer of a currency, asked for by a system contract. -/
example :
    AllPrecompiles.request 0x400 (List.replicate 32 0 ++ [0xbe, 0xab, 0xac, 0xc8]) 0x1000
      = some (.perform (.multiCurrency .Transfer)) := by
  decide

end Setheum.Evm
