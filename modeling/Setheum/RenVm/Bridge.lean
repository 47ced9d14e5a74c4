import Setheum.Lib.Dispatch
import Setheum.Lib.Ledger
import Setheum.Lib.Run
import Setheum.Lib.StorageMap

/-!
# The RenVM bridge

RenVM signs messages off chain. Anyone may submit a signed mint message as an unsigned extrinsic:
`validateUnsigned` recovers the signer and compares it with the stored key, and the call then
deposits the amount and blacklists the signature. Accounts burn bridged tokens to leave the chain
again, and RenVM replaces its key with a message signed under the old one.

Elliptic-curve recovery, the hash and the encoding of accounts are parameters of the
configuration. The mint fee is charged in the native currency, which is part of `external`.
-/

set_option autoImplicit false

namespace Setheum.RenVm

open StorageMap

abbrev Byte := BitVec 8

/-- An array of `n` bytes, the first one most significant. -/
abbrev Bytes (n : ℕ) := BitVec (8 * n)

def Bytes.toList {n : ℕ} (b : Bytes n) : List Byte :=
  (List.range n).map fun i => b.extractLsb' (8 * (n - 1 - i)) 8

abbrev EcdsaSignature := Bytes 65
abbrev PublicKey := Bytes 20
abbrev DestAddress := List Byte

inductive Error
  | InvalidRenVmPublicKey
  | InvalidMintSignature
  | SignatureAlreadyUsed
  deriving DecidableEq, Repr

inductive InvalidTransaction
  | Call
  | Stale
  | BadProof
  deriving DecidableEq, Repr

inductive DispatchError
  | BadOrigin
  | Overflow
  | currency (e : Ledger.Error)
  | invalid (e : InvalidTransaction)
  deriving DecidableEq, Repr

/-- The storages of the bridge, the bridged token and everything else. -/
structure State (A E : Type) where
  bridgedToken : Ledger Unit A
  renVmPublicKey : Option PublicKey
  signatures : Map EcdsaSignature Unit
  burnEvents : Map ℕ (ℕ × DestAddress × ℕ)
  nextBurnEventId : ℕ
  blockNumber : ℕ
  external : E

structure Config (A E : Type) where
  rules : Ledger.Rules Unit A
  currencyIdentifier : Bytes 32
  unsignedPriority : ℕ
  encode : A → List Byte
  keccak256 : List Byte → Bytes 32
  secp256k1EcdsaRecover : EcdsaSignature → Bytes 32 → Option (Bytes 64)
  chargeFee : A → E → E

/-- The calls of the pallet; amounts are 16-byte numbers. -/
inductive Call (A : Type)
  | mint (who : A) (pHash : Bytes 32) (amount : Bytes 16) (nHash : Bytes 32)
      (sig : EcdsaSignature)
  | burn (dest : DestAddress) (amount : Bytes 16)
  | rotateKey (newKey : PublicKey) (sig : EcdsaSignature)
  deriving DecidableEq

structure ValidTransaction where
  provides : String × EcdsaSignature
  priority : ℕ
  longevity : ℕ
  propagate : Bool
  deriving DecidableEq

abbrev RenVmM (A E : Type) := Dispatch DispatchError (State A E)

variable {A E : Type} [DecidableEq A] (cfg : Config A E)

/-! ## Signatures -/

/-- ABI-encode the values for creating the signature hash. -/
def signableMintMessage (pHash : Bytes 32) (amount : Bytes 16) (dest : List Byte)
    (nHash token : Bytes 32) : List Byte :=
  pHash.toList ++ List.replicate 16 0 ++ amount.toList ++ token.toList ++ dest ++ nHash.toList

def signableRotateKeyMessage (newKey : PublicKey) : List Byte := newKey.toList

omit [DecidableEq A] in
/-- Verify that a message has been signed by RenVM. -/
def verifySignature (s : State A E) (message : List Byte) (sig : EcdsaSignature) :
    Except Error Unit :=
  match cfg.secp256k1EcdsaRecover sig (cfg.keccak256 message) with
  | none => .error .InvalidMintSignature
  | some recovered =>
      -- the last twenty bytes of the hash
      let addr : PublicKey := (cfg.keccak256 recovered.toList).setWidth (8 * 20)
      match s.renVmPublicKey with
      | none => .error .InvalidRenVmPublicKey
      | some pubkey => if addr = pubkey then .ok () else .error .InvalidMintSignature

def verifyMintSignature (s : State A E) (pHash : Bytes 32) (amount : Bytes 16)
    (dest : List Byte) (nHash : Bytes 32) (sig : EcdsaSignature) : Except Error Unit :=
  verifySignature cfg s (signableMintMessage pHash amount dest nHash cfg.currencyIdentifier) sig

def verifyRotateKeySignature (s : State A E) (newKey : PublicKey) (sig : EcdsaSignature) :
    Except Error Unit :=
  verifySignature cfg s (signableRotateKeyMessage newKey) sig

/-- The checks that mint and rotate-key extrinsics share. -/
def validateSigned (s : State A E) (sig : EcdsaSignature) (verified : Except Error Unit) :
    Except InvalidTransaction ValidTransaction :=
  if sig ∈ s.signatures then .error .Stale
  else
    match verified with
    | .error _ => .error .BadProof
    | .ok () =>
        .ok { provides := ("setheum-renvm-bridge", sig), priority := cfg.unsignedPriority,
              longevity := 64, propagate := true }

def validateUnsigned (s : State A E) : Call A → Except InvalidTransaction ValidTransaction
  | .mint who pHash amount nHash sig =>
      validateSigned cfg s sig (verifyMintSignature cfg s pHash amount (cfg.encode who) nHash sig)
  | .rotateKey newKey sig =>
      validateSigned cfg s sig (verifyRotateKeySignature cfg s newKey sig)
  | .burn _ _ => .error .Call

/-! ## Calls -/

def deposit (who : A) (amount : ℕ) : RenVmM A E Unit :=
  Dispatch.onComponent State.bridgedToken (fun l s => { s with bridgedToken := l }) .currency
    (Ledger.deposit cfg.rules () who amount)

def withdraw (who : A) (amount : ℕ) : RenVmM A E Unit :=
  Dispatch.onComponent State.bridgedToken (fun l s => { s with bridgedToken := l }) .currency
    (Ledger.withdraw cfg.rules () who amount)

def doMint (sender : A) (amount : ℕ) (sig : EcdsaSignature) : RenVmM A E Unit := do
  deposit cfg sender amount
  modify fun s => { s with signatures := s.signatures.insert sig () }

def doRotateKey (newKey : PublicKey) (sig : EcdsaSignature) : RenVmM A E Unit :=
  modify fun s =>
    { s with renVmPublicKey := some newKey, signatures := s.signatures.insert sig () }

/-- The origin of a dispatched call: nobody, or the account that signed it. -/
abbrev Origin (A : Type) := Option A

def mint (origin : Origin A) (who : A) (_pHash : Bytes 32) (amount : Bytes 16)
    (_nHash : Bytes 32) (sig : EcdsaSignature) : RenVmM A E Unit := do
  Dispatch.ensure (origin = none) .BadOrigin
  doMint cfg who amount.toNat sig
  modify fun s => { s with external := cfg.chargeFee who s.external }

def burn (origin : Origin A) (dest : DestAddress) (amount : Bytes 16) : RenVmM A E Unit := do
  let sender ← Dispatch.okOr origin .BadOrigin
  let s ← get
  let thisId := s.nextBurnEventId
  Dispatch.ensure (thisId + 1 < 2 ^ 32) .Overflow
  withdraw cfg sender amount.toNat
  modify fun s =>
    { s with burnEvents := s.burnEvents.insert thisId (s.blockNumber, dest, amount.toNat),
             nextBurnEventId := thisId + 1 }

def rotateKey (origin : Origin A) (newKey : PublicKey) (sig : EcdsaSignature) :
    RenVmM A E Unit := do
  Dispatch.ensure (origin = none) .BadOrigin
  doRotateKey newKey sig

def dispatch (origin : Origin A) : Call A → RenVmM A E Unit
  | .mint who pHash amount nHash sig => mint cfg origin who pHash amount nHash sig
  | .burn dest amount => burn cfg origin dest amount
  | .rotateKey newKey sig => rotateKey origin newKey sig

/-! ## Runs -/

/-- What happens to the state: an unsigned or a signed extrinsic of the bridge, or anything that
does not touch the bridge's storages. -/
inductive Extrinsic (A E : Type)
  | unsigned (call : Call A)
  | signed (who : A) (call : Call A)
  | outside (bridgedToken : Ledger Unit A) (blockNumber : ℕ) (external : E)

/-- An unsigned extrinsic is dispatched only if it validates in the state it is executed in. -/
def execute : Extrinsic A E → RenVmM A E Unit
  | .unsigned call => do
      let s ← get
      match validateUnsigned cfg s call with
      | .ok _ => dispatch cfg none call
      | .error e => throw (.invalid e)
  | .signed who call => dispatch cfg (some who) call
  | .outside bridgedToken blockNumber external => modify fun s =>
      { s with bridgedToken := bridgedToken, blockNumber := blockNumber, external := external }

/-- The state after an extrinsic, successful or failed. -/
def step (s : State A E) (e : Extrinsic A E) : State A E := (execute cfg e).commit s

end Setheum.RenVm
