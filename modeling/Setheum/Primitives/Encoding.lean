import Setheum.Lib.Scale
import Setheum.Primitives.Currency

/-!
# The encoding of currencies

Currency identifiers are stored in their derived encoding: the index of the variant and then its
fields. A token symbol is its discriminant, an address or a resource its bytes.
-/

set_option autoImplicit false

namespace Setheum

open Scale

def TokenSymbol.codec : Codec TokenSymbol :=
  .enum (fun _ => True) (fun s => UInt8.ofNat s.toU8) (fun _ => [])
    (fun i bs => (TokenSymbol.ofU8 i.toNat).map fun s => (s, bs))
    (by
      intro s _ rest
      have hindex : (UInt8.ofNat s.toU8).toNat = s.toU8 := UInt8.toNat_ofNat_of_lt s.toU8_lt
      rw [hindex, TokenSymbol.ofU8_toU8, Option.map_some, List.nil_append])

def EvmAddress.codec : Codec EvmAddress := .word 20

def ResourceId.codec : Codec ResourceId := .word 32

namespace DexShare

/-- Read the fields of a variant. -/
def readFields (i : UInt8) (bs : List UInt8) : Option (DexShare × List UInt8) :=
  match i with
  | 0 => TokenSymbol.codec.decodeAs Token bs
  | 1 => EvmAddress.codec.decodeAs Erc20 bs
  | _ => none

def codec : Codec DexShare :=
  .enum (fun _ => True)
    (fun
      | Token _ => 0
      | Erc20 _ => 1)
    (fun
      | Token symbol => TokenSymbol.codec.encode symbol
      | Erc20 address => EvmAddress.codec.encode address)
    readFields
    (by
      intro x _ rest
      cases x with
      | Token symbol => exact TokenSymbol.codec.decodeAs_encode Token trivial rest
      | Erc20 address => exact EvmAddress.codec.decodeAs_encode Erc20 trivial rest)

end DexShare

namespace CurrencyId

/-- Read the fields of a variant. -/
def readFields (i : UInt8) (bs : List UInt8) : Option (CurrencyId × List UInt8) :=
  match i with
  | 0 => TokenSymbol.codec.decodeAs Token bs
  | 1 => (DexShare.codec.prod DexShare.codec).decodeAs (fun p => DexShare p.1 p.2) bs
  | 2 => EvmAddress.codec.decodeAs Erc20 bs
  | 3 => ResourceId.codec.decodeAs ChainBridge bs
  | _ => none

def codec : Codec CurrencyId :=
  .enum (fun _ => True)
    (fun
      | Token _ => 0
      | DexShare _ _ => 1
      | Erc20 _ => 2
      | ChainBridge _ => 3)
    (fun
      | Token symbol => TokenSymbol.codec.encode symbol
      | DexShare symbol0 symbol1 =>
          (DexShare.codec.prod DexShare.codec).encode (symbol0, symbol1)
      | Erc20 address => EvmAddress.codec.encode address
      | ChainBridge resource => ResourceId.codec.encode resource)
    readFields
    (by
      intro x _ rest
      cases x with
      | Token symbol => exact TokenSymbol.codec.decodeAs_encode Token trivial rest
      | DexShare symbol0 symbol1 =>
          exact (DexShare.codec.prod DexShare.codec).decodeAs_encode (fun p => DexShare p.1 p.2)
            ⟨trivial, trivial⟩ rest
      | Erc20 address => exact EvmAddress.codec.decodeAs_encode Erc20 trivial rest
      | ChainBridge resource => exact ResourceId.codec.decodeAs_encode ChainBridge trivial rest)

end CurrencyId

end Setheum
