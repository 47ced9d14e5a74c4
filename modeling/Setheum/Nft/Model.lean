import Mathlib.Data.Finset.Card
import Setheum.Lib.Dispatch
import Setheum.Lib.FixedPoint
import Setheum.Lib.Reserves
import Setheum.Lib.Run
import Setheum.Lib.StorageMap

/-!
# Non-fungible tokens and their deposits

A class of tokens is owned by an account derived from its id, on whose behalf its creator acts as a
proxy. The class and each token record a deposit that is reserved with the owner.

The classes and tokens themselves are kept by one pallet and the proxies by another; both are
parameters, `OrmlNft` and `PalletProxy`, with laws that say what their functions do. Destinations
are accounts that were looked up already.
-/

set_option autoImplicit false

namespace Setheum.Nft

open StorageMap

/-- The identifier of the metadata of a class or a token. -/
abbrev CID := List UInt8

abbrev ClassId := ℕ
abbrev TokenId := ℕ

structure Properties where
  transferable : Bool
  burnable : Bool
  deriving DecidableEq, Repr

structure ClassData where
  deposit : ℕ
  properties : Properties
  deriving DecidableEq, Repr

structure TokenData where
  deposit : ℕ
  deriving DecidableEq, Repr

structure ClassInfo (A : Type) where
  owner : A
  totalIssuance : ℕ
  data : ClassData
  deriving DecidableEq, Repr

structure TokenInfo (A : Type) where
  owner : A
  data : TokenData
  deriving DecidableEq, Repr

inductive Error
  | ClassIdNotFound
  | TokenIdNotFound
  | NoPermission
  | InvalidQuantity
  | NonTransferable
  | NonBurnable
  | CannotDestroyClass
  deriving DecidableEq, Repr

inductive DispatchError
  | module (e : Error)
  | balances (e : Reserves.Error)
  /-- The pallet that keeps the tokens refuses. -/
  | nft
  /-- The pallet that keeps the proxies refuses. -/
  | proxy
  deriving DecidableEq, Repr

/-- The pallet that keeps classes and tokens. -/
structure OrmlNft (A N : Type) [DecidableEq A] where
  classes : N → Map ClassId (ClassInfo A)
  tokens : N → Map (ClassId × TokenId) (TokenInfo A)
  nextClassId : N → ClassId
  createClass : A → CID → ClassData → N → Option N
  mint : A → ClassId → CID → TokenData → N → Option N
  transfer : A → A → ClassId × TokenId → N → Option N
  burn : A → ClassId × TokenId → N → Option N
  destroyClass : A → ClassId → N → Option N
  /-- A class is stored under the next id. -/
  createClass_spec : ∀ {owner metadata data n n'}, createClass owner metadata data n = some n' →
    nextClassId n' = nextClassId n + 1 ∧
      classes n' = (classes n).insert (nextClassId n) ⟨owner, 0, data⟩ ∧ tokens n' = tokens n
  /-- A token is stored under an id that is not in use. -/
  mint_spec : ∀ {owner classId metadata data n n'},
    mint owner classId metadata data n = some n' → ∃ info tokenId,
      (classes n).lookup classId = some info ∧ (tokens n).lookup (classId, tokenId) = none ∧
      nextClassId n' = nextClassId n ∧
      classes n' = (classes n).insert classId
        { info with totalIssuance := info.totalIssuance + 1 } ∧
      tokens n' = (tokens n).insert (classId, tokenId) ⟨owner, data⟩
  /-- Only the owner can transfer, and to itself without effect. -/
  transfer_spec : ∀ {source dest token n n'}, transfer source dest token n = some n' → ∃ info,
    (tokens n).lookup token = some info ∧ info.owner = source ∧
      nextClassId n' = nextClassId n ∧ classes n' = classes n ∧
      tokens n' = if source = dest then tokens n
        else (tokens n).insert token { info with owner := dest }
  /-- Only the owner can burn. -/
  burn_spec : ∀ {owner token n n'}, burn owner token n = some n' → ∃ info classInfo,
    (tokens n).lookup token = some info ∧ info.owner = owner ∧
      (classes n).lookup token.1 = some classInfo ∧ nextClassId n' = nextClassId n ∧
      classes n' = (classes n).insert token.1
        { classInfo with totalIssuance := classInfo.totalIssuance - 1 } ∧
      tokens n' = (tokens n).erase token
  /-- Only the owner can destroy a class, and only an empty one. -/
  destroyClass_spec : ∀ {owner classId n n'}, destroyClass owner classId n = some n' → ∃ info,
    (classes n).lookup classId = some info ∧ info.owner = owner ∧ info.totalIssuance = 0 ∧
      nextClassId n' = nextClassId n ∧ classes n' = (classes n).erase classId ∧
      tokens n' = tokens n

/-- The pallet that keeps proxies, those of the default type without delay: the delegates of every
account and the deposit recorded for them, which it reserves as their number changes. -/
structure PalletProxy (A P : Type) [DecidableEq A] where
  delegates : P → A → Finset A
  depositOf : P → A → ℕ
  /-- The deposit for a number of proxies. -/
  deposit : ℕ → ℕ
  addProxyDelegate : A → A → P × Reserves A → Option (P × Reserves A)
  removeProxyDelegate : A → A → P × Reserves A → Option (P × Reserves A)
  deposit_zero : deposit 0 = 0
  addProxyDelegate_spec : ∀ {delegator delegatee p r p' r'},
    addProxyDelegate delegator delegatee (p, r) = some (p', r') →
      delegatee ∉ delegates p delegator ∧
      (∀ a, delegates p' a =
        if a = delegator then insert delegatee (delegates p a) else delegates p a) ∧
      (∀ a, depositOf p' a =
        if a = delegator then deposit (delegates p' a).card else depositOf p a) ∧
      ∀ a, r'.reserved a + depositOf p a = r.reserved a + depositOf p' a
  /-- What is unreserved is at most what is reserved. -/
  removeProxyDelegate_spec : ∀ {delegator delegatee p r p' r'},
    removeProxyDelegate delegator delegatee (p, r) = some (p', r') →
      delegatee ∈ delegates p delegator ∧
      (∀ a, delegates p' a =
        if a = delegator then (delegates p a).erase delegatee else delegates p a) ∧
      (∀ a, depositOf p' a =
        if a = delegator then deposit (delegates p' a).card else depositOf p a) ∧
      ∀ a, r'.reserved a = r.reserved a - (depositOf p a - depositOf p' a)

structure State (A N P : Type) where
  balances : Reserves A
  nft : N
  proxy : P

structure Config (A N P : Type) [DecidableEq A] where
  rules : Reserves.Rules A
  nft : OrmlNft A N
  proxy : PalletProxy A P
  createClassDeposit : ℕ
  createTokenDeposit : ℕ
  /-- `into_sub_account` of the pallet's id. -/
  subAccount : ClassId → A
  subAccount_injective : Function.Injective subAccount
  /-- The deposits of as many tokens as one call can mint are within the balance type. -/
  createTokenDeposit_fits : createTokenDeposit * 2 ^ 32 ≤ Balance.maxValue

variable {A N P : Type} [DecidableEq A] (cfg : Config A N P)

abbrev NftM (A N P : Type) := Dispatch DispatchError (State A N P)

/-! ## The other pallets -/

def onBalances (f : Reserves A → Except Reserves.Error (Reserves A)) : NftM A N P Unit :=
  Dispatch.onComponent State.balances (fun r s => { s with balances := r }) .balances f

def currencyTransfer (source dest : A) (amount : ℕ) : NftM A N P Unit :=
  onBalances (Reserves.transfer cfg.rules source dest amount)

def reserve (who : A) (amount : ℕ) : NftM A N P Unit :=
  onBalances (Reserves.reserve cfg.rules who amount)

def unreserve (who : A) (amount : ℕ) : NftM A N P Unit :=
  modify fun s => { s with balances := Reserves.unreserve who amount s.balances }

def onNft (f : N → Option N) : NftM A N P Unit :=
  Dispatch.onComponent State.nft (fun n s => { s with nft := n }) (fun _ => .nft)
    fun n => (f n).elim (.error ()) .ok

def onProxy (f : P × Reserves A → Option (P × Reserves A)) : NftM A N P Unit :=
  Dispatch.onComponent (fun s => (s.proxy, s.balances))
    (fun pr s => { s with proxy := pr.1, balances := pr.2 }) (fun _ => .proxy)
    fun pr => (f pr).elim (.error ()) .ok

def getClass (classId : ClassId) : NftM A N P (ClassInfo A) := do
  let s ← get
  Dispatch.okOr ((cfg.nft.classes s.nft).lookup classId) (.module .ClassIdNotFound)

def getToken (token : ClassId × TokenId) : NftM A N P (TokenInfo A) := do
  let s ← get
  Dispatch.okOr ((cfg.nft.tokens s.nft).lookup token) (.module .TokenIdNotFound)

/-! ## The pallet -/

def createClass (who : A) (metadata : CID) (properties : Properties) : NftM A N P Unit := do
  let s ← get
  let nextId := cfg.nft.nextClassId s.nft
  let owner := cfg.subAccount nextId
  let classDeposit := cfg.createClassDeposit
  let proxyDeposit := cfg.proxy.deposit 1
  let totalDeposit := Balance.saturatingAdd proxyDeposit classDeposit
  currencyTransfer cfg who owner totalDeposit
  reserve cfg owner classDeposit
  onProxy (cfg.proxy.addProxyDelegate owner who)
  onNft (cfg.nft.createClass owner metadata ⟨classDeposit, properties⟩)

def mintTokens (dest : A) (classId : ClassId) (metadata : CID) (data : TokenData) :
    ℕ → NftM A N P Unit
  | 0 => pure ()
  | quantity + 1 => do
      onNft (cfg.nft.mint dest classId metadata data)
      mintTokens dest classId metadata data quantity

/-- Mint as many tokens as the quantity, a `u32`, says. -/
def mint (who dest : A) (classId : ClassId) (metadata : CID) (quantity : Fin (2 ^ 32)) :
    NftM A N P Unit := do
  Dispatch.ensure (1 ≤ quantity.val) (.module .InvalidQuantity)
  let classInfo ← getClass cfg classId
  Dispatch.ensure (who = classInfo.owner) (.module .NoPermission)
  let deposit := cfg.createTokenDeposit
  let totalDeposit := Balance.saturatingMul deposit quantity
  currencyTransfer cfg who dest totalDeposit
  reserve cfg dest totalDeposit
  mintTokens cfg dest classId metadata ⟨deposit⟩ quantity

/-- The deposit moves along with the token. -/
def doTransfer (source dest : A) (token : ClassId × TokenId) : NftM A N P Unit :=
  Dispatch.transactional do
    let classInfo ← getClass cfg token.1
    Dispatch.ensure (classInfo.data.properties.transferable = true) (.module .NonTransferable)
    let tokenInfo ← getToken cfg token
    onNft (cfg.nft.transfer source dest token)
    unreserve source tokenInfo.data.deposit
    currencyTransfer cfg source dest tokenInfo.data.deposit
    reserve cfg dest tokenInfo.data.deposit

def doBurn (who : A) (token : ClassId × TokenId) : NftM A N P Unit :=
  Dispatch.transactional do
    let classInfo ← getClass cfg token.1
    Dispatch.ensure (classInfo.data.properties.burnable = true) (.module .NonBurnable)
    let tokenInfo ← getToken cfg token
    Dispatch.ensure (who = tokenInfo.owner) (.module .NoPermission)
    onNft (cfg.nft.burn who token)
    unreserve who tokenInfo.data.deposit

/-- Destroy an empty class. The proxy and what is free go to the destination. -/
def destroyClass (who : A) (classId : ClassId) (dest : A) : NftM A N P Unit := do
  let classInfo ← getClass cfg classId
  Dispatch.ensure (who = classInfo.owner) (.module .NoPermission)
  Dispatch.ensure (classInfo.totalIssuance = 0) (.module .CannotDestroyClass)
  let data := classInfo.data
  unreserve who data.deposit
  onNft (cfg.nft.destroyClass who classId)
  onProxy (cfg.proxy.removeProxyDelegate who dest)
  let s ← get
  currencyTransfer cfg who dest (s.balances.free who)

/-! ## Calls -/

/-- The calls, the transfer that other pallets use, and changes to the free balances by whatever
else happens on the chain. -/
inductive Call (A : Type)
  | createClass (who : A) (metadata : CID) (properties : Properties)
  | mint (who dest : A) (classId : ClassId) (metadata : CID) (quantity : Fin (2 ^ 32))
  | transfer (who dest : A) (token : ClassId × TokenId)
  | burn (who : A) (token : ClassId × TokenId)
  | burnWithRemark (who : A) (token : ClassId × TokenId) (remark : List UInt8)
  | destroyClass (who : A) (classId : ClassId) (dest : A)
  | nftTransfer (source dest : A) (token : ClassId × TokenId)
  | other (free : A → ℕ)

def Call.call : Call A → NftM A N P Unit
  | .createClass who metadata properties =>
      Dispatch.transactional (Nft.createClass cfg who metadata properties)
  | .mint who dest classId metadata quantity =>
      Dispatch.transactional (Nft.mint cfg who dest classId metadata quantity)
  | .transfer who dest token => Dispatch.transactional (doTransfer cfg who dest token)
  | .burn who token => Dispatch.transactional (doBurn cfg who token)
  | .burnWithRemark who token _ => Dispatch.transactional (doBurn cfg who token)
  | .destroyClass who classId dest =>
      Dispatch.transactional (Nft.destroyClass cfg who classId dest)
  | .nftTransfer source dest token => doTransfer cfg source dest token
  | .other free => modify fun s => { s with balances := { s.balances with free } }

def step (s : State A N P) (c : Call A) : State A N P := Dispatch.commit (c.call cfg) s

/-- Nothing is reserved, and there are no classes, tokens or proxies. -/
structure Genesis (s : State A N P) : Prop where
  reserved : ∀ a, s.balances.reserved a = 0
  classes : cfg.nft.classes s.nft = ∅
  tokens : cfg.nft.tokens s.nft = ∅
  delegates : ∀ a, cfg.proxy.delegates s.proxy a = ∅
  depositOf : ∀ a, cfg.proxy.depositOf s.proxy a = 0

end Setheum.Nft
