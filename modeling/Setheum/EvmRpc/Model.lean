import Setheum.Evm.StorageMeter
import Setheum.Lib.BigEndian
import Setheum.Lib.Checked
import Setheum.Lib.Loop

/-!
# The RPC of the EVM

A node answers two requests: to call or create a contract without changing the chain, and to
estimate what an extrinsic will use. It asks the runtime of a block, and turns how a contract ended
into an error of the RPC. The estimate is a search: it tries gas limits between two bounds until
what is used changes little.

The runtime of a block answers alike whenever it is asked, but the best block may have changed from
one test of the search to the next. How `Debug` writes an error or a number is a parameter, and the
errors of the runtime are what it writes.
-/

set_option autoImplicit false

namespace Setheum.EvmRpc

open Checked BigEndian Evm

/-! ## Errors and exits -/

inductive ErrorCode
  | MethodNotFound
  | InvalidParams
  | InternalError
  | ServerError (code : ℤ)
  deriving DecidableEq, Repr

structure RpcError where
  code : ErrorCode
  message : String
  data : Option String
  deriving DecidableEq, Repr

def internalErr (message : String) : RpcError := ⟨.InternalError, message, none⟩

/-- Only running out of gas is told apart; the others are as `Debug` writes them. -/
inductive ExitError
  | OutOfGas
  | other (debug : String)
  deriving DecidableEq, Repr

def ExitError.debug : ExitError → String
  | .OutOfGas => "OutOfGas"
  | .other debug => debug

inductive ExitReason
  | Succeed
  | Error (e : ExitError)
  | Revert
  | Fatal (debug : String)
  deriving DecidableEq, Repr

def hexDigit (n : ℕ) : Char := "0123456789abcdef".toList.getD n '0'

/-- `to_hex`. -/
def toHex (data : List UInt8) : String :=
  String.ofList (data.flatMap fun byte => [hexDigit (byte.toNat / 16), hexDigit (byte.toNat % 16)])

section Exits

variable (b : Build)

/-- The reason of a revert, behind the selector, an offset that is not read, and its length. -/
def decodeRevertMessage (data : List UInt8) : Checked RpcError (Option String) := do
  let msgStart := 68
  if msgStart < data.length then
    let word ← slice data 36 msgStart
    let messageLen := min (ofBytes word) (b.usize - 1)
    -- `checked_add`
    if b.usize ≤ msgStart + messageLen then return none
    let msgEnd := msgStart + messageLen
    if data.length < msgEnd then return none
    let body ← slice data msgStart msgEnd
    return String.fromUTF8? ⟨body.toArray⟩
  else return none

def errorOnExecutionFailure (reason : ExitReason) (data : List UInt8) : Checked RpcError Unit :=
  match reason with
  | .Succeed => .ok ()
  | .Error e =>
      if e = .OutOfGas then fail ⟨.ServerError 0, "out of gas", none⟩
      else fail ⟨.InternalError, "execution error: " ++ e.debug, some "0x"⟩
  | .Revert => do
      let message ← decodeRevertMessage b data
      fail ⟨.InternalError, message.elim "execution revert" ("execution revert: " ++ ·),
        some ("0x" ++ toHex data)⟩
  | .Fatal debug => fail ⟨.InternalError, "execution fatal: " ++ debug, some "0x"⟩

end Exits

/-! ## Requests -/

inductive NumberOrHex
  | Number (n : ℕ)
  | Hex (n : ℕ)
  deriving DecidableEq, Repr

def NumberOrHex.intoU256 : NumberOrHex → ℕ
  | .Number n => n
  | .Hex n => n

def toU128 (val : NumberOrHex) : Option ℕ :=
  if val.intoU256 < 2 ^ 128 then some val.intoU256 else none

/-- `sender` is `from` and `target` is `to`. -/
structure CallRequest where
  sender : Option EvmAddress
  target : Option EvmAddress
  gasLimit : Option ℕ
  storageLimit : Option ℕ
  value : Option NumberOrHex
  data : Option (List UInt8)
  deriving DecidableEq, Repr

structure EstimateResourcesRequest where
  target : Option EvmAddress
  gasLimit : Option ℕ
  storageLimit : Option ℕ
  value : Option ℕ
  data : Option (List UInt8)
  deriving DecidableEq, Repr

structure EstimateResourcesResponse where
  gas : ℕ
  storage : ℤ
  weightFee : ℕ
  deriving DecidableEq, Repr

/-- What a call or the creation of a contract came to. -/
structure ExecutionInfo where
  exitReason : ExitReason
  output : List UInt8
  usedGas : ℕ
  usedStorage : ℤ
  deriving DecidableEq, Repr

/-- The arguments of `call` and `create`; a contract is created where there is no target. -/
structure Execution where
  sender : EvmAddress
  target : Option EvmAddress
  data : List UInt8
  value : ℕ
  gasLimit : ℕ
  storageLimit : ℕ
  estimate : Bool
  deriving DecidableEq, Repr

/-- A node: its chain, the runtimes of its blocks and how it decodes extrinsics. -/
structure Node (Hash Extrinsic : Type) where
  checkIfSafe : Except RpcError Unit
  /-- The hash of the best block, each time it is asked for. -/
  bestHash : ℕ → Hash
  /-- `call` and `create`. -/
  execute : Hash → Execution → Except String (Except String ExecutionInfo)
  getEstimateResourcesRequest :
    Hash → List UInt8 → Except String (Except String EstimateResourcesRequest)
  decodeExtrinsic : List UInt8 → Except String Extrinsic
  /-- The adjusted weight fee, if there is an inclusion fee. -/
  queryFeeDetails : Hash → Extrinsic → ℕ → Except String (Option ℕ)
  /-- `TryInto` the balances of the runtime. -/
  tryIntoBalance : ℕ → Option ℕ
  debugNumber : NumberOrHex → String

variable {Hash Extrinsic : Type} (b : Build) (node : Node Hash Extrinsic)

def lift {α : Type} : Except RpcError α → Checked RpcError α
  | .ok a => .ok a
  | .error e => fail e

/-- The answer of a runtime, whose errors are internal ones. -/
def answered {α : Type} : Except String (Except String α) → Checked RpcError α
  | .error err => fail (internalErr ("runtime error: " ++ err))
  | .ok (.error err) => fail (internalErr ("execution fatal: " ++ err))
  | .ok (.ok a) => .ok a

/-- An answer whose error is the data of an internal one. -/
def orErr {α : Type} (message : String) : Except String α → Checked RpcError α
  | .ok a => .ok a
  | .error err => fail ⟨.InternalError, message, some err⟩

def balanceValue (value : Option NumberOrHex) : Checked RpcError ℕ :=
  match value with
  | none => .ok 0
  | some value =>
      okOr ((toU128 value).bind node.tryIntoBalance)
        ⟨.InvalidParams, "Invalid parameter value: Some(" ++ node.debugNumber value ++ ")", none⟩

/-- Ask the runtime of a block to execute a request. -/
def execute (hash : Hash) (request : CallRequest) (estimate : Bool) :
    Checked RpcError ExecutionInfo := do
  let value ← balanceValue node request.value
  answered (node.execute hash
    { sender := request.sender.getD 0
      target := request.target
      data := request.data.getD []
      value := value
      gasLimit := request.gasLimit.getD (2 ^ 64 - 1)
      storageLimit := request.storageLimit.getD (2 ^ 32 - 1)
      estimate := estimate })

def call (request : CallRequest) (at' : Option Hash) : Checked RpcError (List UInt8) := do
  lift node.checkIfSafe
  let hash := at'.getD (node.bestHash 0)
  let info ← execute node hash request false
  errorOnExecutionFailure b info.exitReason info.output
  return info.output

/-! ## Estimates -/

/-- The gas and the storage that a request uses; the output of a failed creation is not shown. -/
def calculateGasUsed (hash : Hash) (request : CallRequest) : Checked RpcError (ℕ × ℤ) := do
  let info ← execute node hash request true
  errorOnExecutionFailure b info.exitReason (if request.target.isSome then info.output else [])
  return (info.usedGas, info.usedStorage)

/-- A number that must fit `U256`, whose operators panic on overflow. -/
def u256 {ε : Type} (n : ℕ) : Checked ε ℕ := if n < 2 ^ 256 then .ok n else panicked

def lowestLimit : ℕ := 21000
def highestLimit : ℕ := 1000000000
def thresholdPct : ℕ := 10

/-- `round` counts the tests. -/
structure Search where
  round : ℕ
  lower : ℕ
  upper : ℕ
  mid : ℕ
  best : ℕ
  storage : ℤ
  deriving DecidableEq, Repr

def Search.start : Search := ⟨0, lowestLimit, highestLimit, highestLimit, highestLimit, 0⟩

/-- `(lower + upper + 1) / 2`. -/
def middle {ε : Type} (lower upper : ℕ) : Checked ε ℕ := do
  let sum ← u256 (lower + upper)
  let sum ← u256 (sum + 1)
  return sum / 2

/-- `old_best - best`. -/
def subBest {ε : Type} (oldBest best : ℕ) : Checked ε ℕ :=
  if best ≤ oldBest then .ok (oldBest - best) else panicked

/-- A pass of the search. Where a test runs out of gas, the lower bound rises. -/
def Search.pass (test : ℕ → ℕ → Checked RpcError (ℕ × ℤ)) (s : Search) :
    Checked RpcError (Loop.Next Search (ℕ × ℤ)) :=
  match test s.round s.mid with
  | .ok (usedGas, usedStorage) => do
      let decrease ← subBest s.best usedGas
      let scaled ← u256 (100 * decrease)
      -- no change where the old best was nothing
      let changePct := scaled / s.best
      let mid ← middle s.lower s.mid
      if thresholdPct < changePct then
        return .again ⟨s.round + 1, s.lower, s.mid, mid, usedGas, usedStorage⟩
      else return .done (usedGas, usedStorage)
  | .error (.error err) =>
      if err.code = .ServerError 0 then do
        let mid ← middle s.mid s.upper
        if mid = s.mid then return .done (s.best, s.storage)
        else return .again ⟨s.round + 1, s.mid, s.upper, mid, s.best, s.storage⟩
      else fail err
  | .error .panic => panicked

/-- More passes than a search takes; one that took them all would count as a panic. -/
def passes : ℕ := 256

def search (test : ℕ → ℕ → Checked RpcError (ℕ × ℤ)) : Checked RpcError (ℕ × ℤ) :=
  Loop.run (Search.pass test) .panic passes Search.start

/-- The request that the runtime made of an extrinsic. -/
def CallRequest.ofEstimate (sender : EvmAddress) (request : EstimateResourcesRequest) :
    CallRequest where
  sender := some sender
  target := request.target
  gasLimit := request.gasLimit
  storageLimit := request.storageLimit
  value := request.value.map .Hex
  data := request.data

/-- A test of the search: the request with another gas limit, at the block that is best then. -/
def testLimit (request : CallRequest) (round limit : ℕ) : Checked RpcError (ℕ × ℤ) :=
  calculateGasUsed b node (node.bestHash (round + 1)) { request with gasLimit := some limit }

/-- `binarySearch` is the feature `rpc_binary_search_estimate`. -/
def estimateResources (binarySearch : Bool) (sender : EvmAddress) (unsignedExtrinsic : List UInt8)
    (at' : Option Hash) : Checked RpcError EstimateResourcesResponse := do
  lift node.checkIfSafe
  let hash := at'.getD (node.bestHash 0)
  let request ← answered (node.getEstimateResourcesRequest hash unsignedExtrinsic)
  let request := CallRequest.ofEstimate sender request
  let used ←
    if binarySearch then search (testLimit b node request)
    else calculateGasUsed b node (node.bestHash 1) request
  let uxt ← orErr "Unable to dry run extrinsic." (node.decodeExtrinsic unsignedExtrinsic)
  let fee ← orErr "Unable to query fee details."
    (node.queryFeeDetails hash uxt (unsignedExtrinsic.length % 2 ^ 32))
  return ⟨used.1, used.2, fee.getD 0⟩

end Setheum.EvmRpc
