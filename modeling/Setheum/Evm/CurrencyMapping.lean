import Setheum.Lib.BigEndian
import Setheum.Lib.Dispatch
import Setheum.Lib.Run
import Setheum.Lib.StorageMap
import Setheum.Primitives.Currency

/-!
# Currencies as EVM addresses

A currency has an address under which contracts call it, and an address is read back as the
currency it stands for. Tokens and liquidity shares have addresses under reserved prefixes. A
share has four bytes for each half, too few for an ERC-20 contract, so a contract that is used in
one is mapped from a 32-bit id, the first bytes of its address that are not zero.

* `CurrencyIdMap.Keyed` — every contract is mapped from its own id, in every reachable map.
* `decodeEvmAddress_iff` — when the address of a currency is read back as that currency.
* `encodeEvmAddress_iff` — when the currency that an address stands for has that address.
-/

set_option autoImplicit false

namespace Setheum

open BigEndian

/-! ## Addresses without a map -/

def EvmAddress.asBytes (address : EvmAddress) : List UInt8 := toBytes 20 address.toNat

/-- The id of a share half: a symbol's discriminant, or for a contract the four bytes from the
first one that is not zero, the last four at the latest. -/
def DexShare.toU32 : DexShare → ℕ
  | .Token token => ofBytes [0, 0, 0, UInt8.ofNat token.toU8]
  | .Erc20 address =>
      let leadingZeros := BigEndian.leadingZeros address.asBytes
      let index := if 16 < leadingZeros then 16 else leadingZeros
      ofBytes ((address.asBytes.drop index).take 4)

def MIRRORED_TOKENS_ADDRESS_START : ℕ := 0x1000000

def H160_PREFIX_TOKEN : List UInt8 := [0, 0, 0, 0, 0, 0, 0, 0, 0, 0, 0, 0, 0, 0, 0, 0, 1, 0, 0]

def H160_PREFIX_DEXSHARE : List UInt8 := [0, 0, 0, 0, 0, 0, 0, 0, 0, 0, 0, 1]

/-- `from_low_u64_be`. -/
def EvmAddress.fromLowU64 (x : ℕ) : EvmAddress := BitVec.ofNat 160 x

/-- The address of a share, from the ids of its halves. -/
def shareAddress (symbol0 symbol1 : ℕ) : EvmAddress :=
  BitVec.ofNat 160 (ofBytes (H160_PREFIX_DEXSHARE ++ List.replicate 8 0)) |||
    .fromLowU64 (symbol0 <<< 32 ||| symbol1)

/-- The symbol of a share half that is a token. -/
def DexShare.tokenId : DexShare → Option ℕ
  | .Token token => some token.toU8
  | .Erc20 _ => none

/-- `TryFrom<CurrencyId>`, for which no contract is mapped. -/
def CurrencyId.toEvmAddress : CurrencyId → Option EvmAddress
  | .Token token => some (.fromLowU64 (MIRRORED_TOKENS_ADDRESS_START ||| token.toU8))
  | .DexShare tokenSymbol0 tokenSymbol1 => do
      let symbol0 ← tokenSymbol0.tokenId
      let symbol1 ← tokenSymbol1.tokenId
      return shareAddress symbol0 symbol1
  | .Erc20 address => some address
  | .ChainBridge _ => none

/-! ## The map -/

namespace EvmManager

open StorageMap Dispatch

structure Erc20Info where
  address : EvmAddress
  name : List UInt8
  symbol : List UInt8
  decimals : ℕ
  deriving DecidableEq, Repr

abbrev CurrencyIdMap := Map ℕ Erc20Info

inductive Error
  | CurrencyIdExisted
  | evmBridge
  deriving DecidableEq, Repr

/-- What contracts answer at the time they are asked, if they do. -/
structure EVMBridge where
  name : EvmAddress → Option (List UInt8)
  symbol : EvmAddress → Option (List UInt8)
  decimals : EvmAddress → Option ℕ

/-- Map a contract from its id, unless another contract has that id. -/
def setErc20Mapping (evmBridge : EVMBridge) (address : EvmAddress) :
    Dispatch Error CurrencyIdMap Unit := do
  let currencyIdMap ← get
  let id := (DexShare.Erc20 address).toU32
  match currencyIdMap.lookup id with
  | some erc20Info => ensure (erc20Info.address = address) .CurrencyIdExisted
  | none => do
      let name ← okOr (evmBridge.name address) .evmBridge
      let symbol ← okOr (evmBridge.symbol address) .evmBridge
      let decimals ← okOr (evmBridge.decimals address) .evmBridge
      set (currencyIdMap.insert id ⟨address, name, symbol, decimals⟩)

namespace CurrencyIdMap

variable (currencyIdMap : CurrencyIdMap)

/-- What is left of the map after a call, which fails as a whole. -/
def step (call : EVMBridge × EvmAddress) : CurrencyIdMap :=
  commit (transactional (setErc20Mapping call.1 call.2)) currencyIdMap

/-- The contract that an id is mapped to. -/
def address (id : ℕ) : Option EvmAddress := (currencyIdMap.lookup id).map Erc20Info.address

/-- The id of a share half, if it is a token or a contract that is mapped. -/
def encodeShare (half : DexShare) : Option ℕ :=
  match half with
  | .Token _ => some half.toU32
  | .Erc20 address =>
      ((currencyIdMap.lookup half.toU32).filter (·.address = address)).map fun _ => half.toU32

def encodeEvmAddress : CurrencyId → Option EvmAddress
  | .DexShare left right => do
      let symbol0 ← currencyIdMap.encodeShare left
      let symbol1 ← currencyIdMap.encodeShare right
      return shareAddress symbol0 symbol1
  | v => v.toEvmAddress

/-- The share half that four bytes stand for. -/
def decodeShare (bytes : List UInt8) : Option DexShare :=
  if [0, 0, 0].isPrefixOf bytes then (TokenSymbol.ofU8 (bytes.getD 3 0).toNat).map .Token
  else (currencyIdMap.lookup (ofBytes bytes)).map fun v => .Erc20 v.address

/-- The decimals of a share half, if it is a token or a contract that is mapped. -/
def shareDecimals (half : DexShare) : Option ℕ :=
  match half with
  | .Token symbol => (CurrencyId.Token symbol).tokenDecimals
  | .Erc20 address =>
      ((currencyIdMap.lookup half.toU32).filter (·.address = address)).map Erc20Info.decimals

/-- The decimals of a currency, of a share those of the half that has more. -/
def decimals (currencyId : CurrencyId) : Option ℕ :=
  match currencyId with
  | .Token _ => currencyId.tokenDecimals
  | .DexShare symbol0 symbol1 => do
      let decimals0 ← currencyIdMap.shareDecimals symbol0
      let decimals1 ← currencyIdMap.shareDecimals symbol1
      return max decimals0 decimals1
  | .Erc20 address => currencyIdMap.shareDecimals (.Erc20 address)
  | .ChainBridge _ => none

def decodeEvmAddress (addr : EvmAddress) : Option CurrencyId :=
  if H160_PREFIX_TOKEN.isPrefixOf addr.asBytes then
    (TokenSymbol.ofU8 (addr.asBytes.getD 19 0).toNat).map .Token
  else if H160_PREFIX_DEXSHARE.isPrefixOf addr.asBytes then do
    let left ← currencyIdMap.decodeShare ((addr.asBytes.drop 12).take 4)
    let right ← currencyIdMap.decodeShare ((addr.asBytes.drop 16).take 4)
    return .DexShare left right
  else
    (currencyIdMap.lookup (DexShare.Erc20 addr).toU32).map fun v => .Erc20 v.address

end CurrencyIdMap

example : CurrencyIdMap.encodeEvmAddress ∅ (.DexShare (.Token .DNAR) (.Token .USDJ))
  = some 0x0000000000000000000000010000000000000003 := by decide

end EvmManager

/-! ## Layout -/

theorem EvmAddress.length_asBytes (a : EvmAddress) : a.asBytes.length = 20 := length_toBytes ..

theorem EvmAddress.ofBytes_asBytes (a : EvmAddress) : ofBytes a.asBytes = a.toNat := by
  rw [asBytes, ofBytes_toBytes]
  exact Nat.mod_eq_of_lt a.isLt

theorem EvmAddress.token_prefix_iff (a : EvmAddress) :
    H160_PREFIX_TOKEN.isPrefixOf a.asBytes ↔ a.toNat / 256 = 0x10000 := by
  have hlt := a.isLt
  rw [asBytes, prefix_iff (m := 19) rfl 1, Nat.mod_eq_of_lt (by omega)]
  exact Iff.rfl

theorem EvmAddress.dexShare_prefix_iff (a : EvmAddress) :
    H160_PREFIX_DEXSHARE.isPrefixOf a.asBytes ↔ a.toNat / 2 ^ 64 = 1 := by
  have hlt := a.isLt
  rw [asBytes, prefix_iff (m := 12) rfl 8, Nat.mod_eq_of_lt (by omega)]
  exact Iff.rfl

theorem EvmAddress.asBytes_left (a : EvmAddress) :
    (a.asBytes.drop 12).take 4 = toBytes 4 (a.toNat / 2 ^ 32) := by
  have hpow : 256 ^ 4 = 2 ^ 32 := by decide
  rw [asBytes, drop_toBytes 12 8, take_toBytes 4 4, hpow]

theorem EvmAddress.asBytes_right (a : EvmAddress) :
    (a.asBytes.drop 16).take 4 = toBytes 4 a.toNat := by
  rw [asBytes, drop_toBytes 16 4, take_toBytes 4 0, Nat.pow_zero, Nat.div_one]

theorem EvmAddress.asBytes_last (a : EvmAddress) :
    (a.asBytes.getD 19 0).toNat = a.toNat % 256 := by
  have hlast : a.asBytes.getD 19 0 = UInt8.ofNat (a.toNat / 256 ^ 0) := rfl
  rw [hlast, Nat.pow_zero, Nat.div_one]
  exact UInt8.toNat_ofNat'

namespace DexShare

/-- The half is no contract whose id is read as a symbol. -/
def Distinct : DexShare → Prop
  | .Token _ => True
  | .Erc20 address => 256 ≤ address.toNat

theorem toU32_token (s : TokenSymbol) : (Token s).toU32 = s.toU8 := by
  have hs : (UInt8.ofNat s.toU8).toNat = s.toU8 := UInt8.toNat_ofNat_of_lt' s.toU8_lt
  simp only [toU32, ofBytes, List.length_cons, List.length_nil, hs]
  simp

theorem toU32_lt (half : DexShare) : half.toU32 < 2 ^ 32 := by
  cases half with
  | Token s =>
      have hs := s.toU8_lt
      rw [toU32_token]
      omega
  | Erc20 a =>
      unfold toU32
      dsimp only
      set bytes := (a.asBytes.drop _).take 4
      have hlength : bytes.length ≤ 4 := List.length_take_le ..
      calc ofBytes bytes < 256 ^ bytes.length := ofBytes_lt bytes
        _ ≤ 256 ^ 4 := Nat.pow_le_pow_right (by decide) hlength
        _ = 2 ^ 32 := by decide

/-- A contract has the id of a symbol exactly if all but the last byte of its address are zero. -/
theorem toU32_erc20_lt_iff (a : EvmAddress) : (Erc20 a).toU32 < 256 ↔ a.toNat < 256 := by
  have hbytes := a.ofBytes_asBytes
  have hlength := a.length_asBytes
  unfold toU32
  dsimp only
  set zeros := leadingZeros a.asBytes
  by_cases hzeros : 16 < zeros
  · -- The last four bytes are the whole address.
    have hdrop : ofBytes (a.asBytes.drop 16) = a.toNat := by
      rw [ofBytes_drop_zeros (by omega), hbytes]
    rw [if_pos hzeros, List.take_of_length_le (by rw [List.length_drop, hlength]), hdrop]
  · -- The first byte of the four is not zero.
    rw [if_neg hzeros]
    have hin : zeros < a.asBytes.length := by omega
    obtain ⟨b, rest, hdrop, hb⟩ := drop_leadingZeros a.asBytes hin
    have hrest : rest.length = 19 - zeros := by
      have hl := congrArg List.length hdrop
      rw [List.length_drop, hlength, List.length_cons] at hl
      omega
    have hid := pow_le_ofBytes_cons hb (rest.take 3)
    have haddress := pow_le_ofBytes_cons hb rest
    rw [← hdrop, ofBytes_drop_zeros (Nat.le_refl _), hbytes] at haddress
    have hlarge : 256 ^ 3 ≤ 256 ^ rest.length := Nat.pow_le_pow_right (by decide) (by omega)
    rw [List.length_take, Nat.min_eq_left (by omega)] at hid
    have htake : (a.asBytes.drop zeros).take 4 = b :: rest.take 3 := by
      rw [hdrop]
      rfl
    rw [htake]
    constructor <;> intro h <;> omega

end DexShare

theorem shareAddress_toNat {symbol0 symbol1 : ℕ} (h0 : symbol0 < 2 ^ 32) (h1 : symbol1 < 2 ^ 32) :
    (shareAddress symbol0 symbol1).toNat = 2 ^ 64 + symbol0 * 2 ^ 32 + symbol1 := by
  have hlow : symbol0 <<< 32 ||| symbol1 = symbol0 * 2 ^ 32 + symbol1 := by
    rw [← Nat.shiftLeft_add_eq_or_of_lt h1, Nat.shiftLeft_eq]
  have hstart : ofBytes (H160_PREFIX_DEXSHARE ++ List.replicate 8 0) = 2 ^ 64 := by decide
  have hlt : symbol0 * 2 ^ 32 + symbol1 < 2 ^ 64 := by omega
  rw [shareAddress, EvmAddress.fromLowU64, hlow, hstart, BitVec.toNat_or, BitVec.toNat_ofNat,
    BitVec.toNat_ofNat, Nat.mod_eq_of_lt (by decide), Nat.mod_eq_of_lt (by omega)]
  have hor := Nat.two_pow_add_eq_or_of_lt hlt 1
  rw [Nat.mul_one] at hor
  omega

namespace EvmManager

open StorageMap Dispatch

/-! ## Reachable maps -/

namespace CurrencyIdMap

/-- Every contract is mapped from its own id. -/
def Keyed (m : CurrencyIdMap) : Prop :=
  ∀ id info, m.lookup id = some info → (DexShare.Erc20 info.address).toU32 = id

/-- A call that succeeds maps the contract from its id, or finds it mapped, and changes no other
entry. -/
theorem setErc20Mapping_spec {evmBridge : EVMBridge} {address : EvmAddress} {m m' : CurrencyIdMap}
    (h : (setErc20Mapping evmBridge address).run m = .ok () m') :
    m'.address (DexShare.Erc20 address).toU32 = some address ∧
      ∀ id info, m'.lookup id = some info → m.lookup id = some info ∨
        (id = (DexShare.Erc20 address).toU32 ∧ info.address = address ∧
          evmBridge.decimals address = some info.decimals) := by
  obtain ⟨_, s, h1, h⟩ := run_bind_ok.mp h
  obtain ⟨rfl, rfl⟩ := run_get_ok.mp h1
  dsimp only at h
  cases hlookup : m.lookup (DexShare.Erc20 address).toU32 with
  | some info =>
      rw [hlookup] at h
      obtain ⟨haddress, rfl⟩ := run_ensure_ok.mp h
      refine ⟨?_, fun id info h => .inl h⟩
      rw [CurrencyIdMap.address, hlookup, ← haddress]
      rfl
  | none =>
      rw [hlookup] at h
      obtain ⟨name, s, h1, h⟩ := run_bind_ok.mp h
      obtain ⟨-, rfl⟩ := run_okOr_ok.mp h1
      obtain ⟨symbol, s, h1, h⟩ := run_bind_ok.mp h
      obtain ⟨-, rfl⟩ := run_okOr_ok.mp h1
      obtain ⟨decimals, s, h1, h⟩ := run_bind_ok.mp h
      obtain ⟨hdecimals, rfl⟩ := run_okOr_ok.mp h1
      rw [← run_set_ok.mp h]
      refine ⟨?_, fun id info hinfo => ?_⟩
      · rw [CurrencyIdMap.address, AList.lookup_insert]
        rfl
      · by_cases hid : id = (DexShare.Erc20 address).toU32
        · rw [hid, AList.lookup_insert] at hinfo
          cases hinfo
          exact .inr ⟨hid, rfl, hdecimals⟩
        · rw [AList.lookup_insert_ne hid] at hinfo
          exact .inl hinfo

theorem Keyed.step {m : CurrencyIdMap} (hm : m.Keyed) (call : EVMBridge × EvmAddress) :
    (m.step call).Keyed := by
  refine commit_transactional_invariant hm fun _ m' h id info hinfo => ?_
  obtain hold | ⟨rfl, haddress, -⟩ := (setErc20Mapping_spec h).2 id info hinfo
  · exact hm id info hold
  · rw [haddress]

/-- **Every reachable map has each contract at its own id.** -/
theorem keyed_run (calls : List (EVMBridge × EvmAddress)) :
    (Machine.run CurrencyIdMap.step ∅ calls).Keyed :=
  Machine.run_invariant_always (P := Keyed) (fun _ call hm => hm.step call)
    (fun _ _ hnone => by cases hnone) calls

/-- Every contract has decimals of 8 bits. -/
def DecimalsInRange (m : CurrencyIdMap) : Prop :=
  ∀ id info, m.lookup id = some info → info.decimals < 256

theorem DecimalsInRange.step {m : CurrencyIdMap} (hm : m.DecimalsInRange)
    {call : EVMBridge × EvmAddress} (hcall : ∀ a d, call.1.decimals a = some d → d < 256) :
    (m.step call).DecimalsInRange := by
  refine commit_transactional_invariant hm fun _ m' h id info hinfo => ?_
  obtain hold | ⟨-, -, hdecimals⟩ := (setErc20Mapping_spec h).2 id info hinfo
  · exact hm id info hold
  · exact hcall _ _ hdecimals

/-- **In every reachable map, if the contracts answer with 8 bits.** -/
theorem decimalsInRange_run (calls : List (EVMBridge × EvmAddress))
    (hcalls : ∀ call ∈ calls, ∀ a d, call.1.decimals a = some d → d < 256) :
    (Machine.run CurrencyIdMap.step ∅ calls).DecimalsInRange :=
  Machine.run_invariant (P := DecimalsInRange) (fun _ _ hm hcall => hm.step hcall)
    (fun _ _ hnone => by cases hnone) (Machine.StepsMeet.of_forall hcalls ∅)

theorem DecimalsInRange.shareDecimals_lt {m : CurrencyIdMap} (hm : m.DecimalsInRange)
    {half : DexShare} {d : ℕ} (h : m.shareDecimals half = some d) : d < 256 := by
  cases half with
  | Token s =>
      cases h
      have hs := s.decimals_le
      omega
  | Erc20 a =>
      obtain ⟨info, hinfo, rfl⟩ := Option.map_eq_some_iff.mp h
      exact hm _ info (Option.filter_eq_some_iff.mp hinfo).1

theorem DecimalsInRange.decimals_lt {m : CurrencyIdMap} (hm : m.DecimalsInRange)
    {currencyId : CurrencyId} {d : ℕ} (h : m.decimals currencyId = some d) : d < 256 := by
  cases currencyId with
  | Token s =>
      have hs : m.shareDecimals (.Token s) = some d := h
      exact hm.shareDecimals_lt hs
  | DexShare symbol0 symbol1 =>
      obtain ⟨d0, h0, h⟩ := Option.bind_eq_some_iff.mp h
      obtain ⟨d1, h1, h⟩ := Option.bind_eq_some_iff.mp h
      cases h
      exact max_lt (hm.shareDecimals_lt h0) (hm.shareDecimals_lt h1)
  | Erc20 a =>
      have ha : m.shareDecimals (.Erc20 a) = some d := h
      exact hm.shareDecimals_lt ha
  | ChainBridge r => cases h

/-! ## Share halves -/

variable {m : CurrencyIdMap} {half : DexShare} {id : ℕ}

theorem encodeShare_eq (h : m.encodeShare half = some id) :
    id = half.toU32 ∧ ∀ a, half = .Erc20 a → m.address id = some a := by
  unfold encodeShare at h
  cases half with
  | Token s =>
      cases h
      exact ⟨rfl, nofun⟩
  | Erc20 a =>
      obtain ⟨info, hinfo, rfl⟩ := Option.map_eq_some_iff.mp h
      obtain ⟨hlookup, haddress⟩ := Option.filter_eq_some_iff.mp hinfo
      refine ⟨rfl, fun b hb => ?_⟩
      cases hb
      rw [CurrencyIdMap.address, hlookup, ← of_decide_eq_true haddress]
      rfl

theorem decodeShare_toBytes (m : CurrencyIdMap) {y : ℕ} (hy : y < 2 ^ 32) :
    m.decodeShare (toBytes 4 y) =
      if y < 256 then (TokenSymbol.ofU8 y).map .Token else (m.address y).map .Erc20 := by
  have hpow : 256 ^ 4 = 2 ^ 32 := by decide
  have hstart : [0, 0, 0].isPrefixOf (toBytes 4 y) = true ↔ y < 256 := by
    rw [prefix_iff (m := 3) rfl 1]
    show y / 256 ^ 1 % 256 ^ 3 = 0 ↔ _
    omega
  unfold decodeShare
  by_cases hsmall : y < 256
  · have hlast : (toBytes 4 y).getD 3 0 = UInt8.ofNat (y / 256 ^ 0) := rfl
    rw [if_pos (hstart.mpr hsmall), if_pos hsmall, hlast, Nat.pow_zero, Nat.div_one,
      UInt8.toNat_ofNat_of_lt' hsmall]
  · rw [if_neg (fun h => hsmall (hstart.mp h)), if_neg hsmall, ofBytes_toBytes, hpow,
      Nat.mod_eq_of_lt hy, CurrencyIdMap.address, Option.map_map]
    rfl

/-- Four bytes that were made of a share half are read as that half, unless they are the id of a
contract and look like a symbol. -/
theorem decodeShare_iff (h : m.encodeShare half = some id) :
    m.decodeShare (toBytes 4 id) = some half ↔ half.Distinct := by
  obtain ⟨rfl, hmapped⟩ := encodeShare_eq h
  rw [decodeShare_toBytes m half.toU32_lt]
  cases half with
  | Token s =>
      rw [DexShare.toU32_token, if_pos s.toU8_lt, TokenSymbol.ofU8_toU8]
      exact iff_of_true rfl trivial
  | Erc20 a =>
      have hsmall := DexShare.toU32_erc20_lt_iff a
      by_cases hlt : (DexShare.Erc20 a).toU32 < 256
      · rw [if_pos hlt]
        refine iff_of_false (fun hsymbol => ?_) (Nat.not_le_of_lt (hsmall.mp hlt))
        obtain ⟨s, -, hs⟩ := Option.map_eq_some_iff.mp hsymbol
        cases hs
      · rw [if_neg hlt, hmapped a rfl]
        exact iff_of_true rfl (Nat.le_of_not_lt fun h => hlt (hsmall.mpr h))

/-- The half that four bytes stand for has these bytes. -/
theorem encodeShare_of_decodeShare (hm : m.Keyed) {y : ℕ} (hy : y < 2 ^ 32)
    (h : m.decodeShare (toBytes 4 y) = some half) : m.encodeShare half = some y := by
  rw [decodeShare_toBytes m hy] at h
  split at h
  · obtain ⟨s, hs, rfl⟩ := Option.map_eq_some_iff.mp h
    rw [encodeShare, DexShare.toU32_token, TokenSymbol.toU8_ofU8 hs]
  · obtain ⟨a, ha, rfl⟩ := Option.map_eq_some_iff.mp h
    obtain ⟨info, hinfo, rfl⟩ := Option.map_eq_some_iff.mp ha
    have hid := hm y info hinfo
    have hfilter : (some info).filter (·.address = info.address) = some info := by
      rw [Option.filter_some, if_pos (decide_eq_true rfl)]
    rw [encodeShare, hid, hinfo, hfilter]
    rfl

/-! ## Reading an address -/

variable (m) in
theorem decodeEvmAddress_token {a : EvmAddress} (ha : a.toNat / 256 = 0x10000) :
    m.decodeEvmAddress a = (TokenSymbol.ofU8 (a.toNat % 256)).map .Token := by
  rw [decodeEvmAddress, if_pos (a.token_prefix_iff.mpr ha), a.asBytes_last]

variable (m) in
theorem decodeEvmAddress_dexShare {a : EvmAddress} (ha : a.toNat / 2 ^ 64 = 1) :
    m.decodeEvmAddress a = do
      let left ← m.decodeShare (toBytes 4 (a.toNat / 2 ^ 32 % 2 ^ 32))
      let right ← m.decodeShare (toBytes 4 (a.toNat % 2 ^ 32))
      return .DexShare left right := by
  have hpow : 2 ^ 32 = 256 ^ 4 := by decide
  have hmod : ∀ x, toBytes 4 (x % 2 ^ 32) = toBytes 4 x := fun x => by
    rw [toBytes_eq_iff (length_toBytes ..), ofBytes_toBytes, hpow, Nat.mod_mod]
  have htoken : ¬ a.toNat / 256 = 0x10000 := by omega
  rw [decodeEvmAddress, if_neg (fun h => htoken (a.token_prefix_iff.mp h)),
    if_pos (a.dexShare_prefix_iff.mpr ha), a.asBytes_left, a.asBytes_right, hmod, hmod]

variable (m) in
theorem decodeEvmAddress_erc20 {a : EvmAddress} (htoken : ¬ a.toNat / 256 = 0x10000)
    (hshare : ¬ a.toNat / 2 ^ 64 = 1) :
    m.decodeEvmAddress a = (m.address (DexShare.Erc20 a).toU32).map .Erc20 := by
  rw [decodeEvmAddress, if_neg (fun h => htoken (a.token_prefix_iff.mp h)),
    if_neg (fun h => hshare (a.dexShare_prefix_iff.mp h)), CurrencyIdMap.address, Option.map_map]
  rfl

theorem tokenAddress_toNat (s : TokenSymbol) :
    (EvmAddress.fromLowU64 (MIRRORED_TOKENS_ADDRESS_START ||| s.toU8)).toNat
      = 0x1000000 + s.toU8 := by
  have hs := s.toU8_lt
  have hadd : MIRRORED_TOKENS_ADDRESS_START ||| s.toU8 = 0x1000000 + s.toU8 := by
    have hor := Nat.two_pow_add_eq_or_of_lt (show s.toU8 < 2 ^ 24 by omega) 1
    exact hor.symm
  rw [EvmAddress.fromLowU64, hadd, BitVec.toNat_ofNat, Nat.mod_eq_of_lt (by omega)]

/-! ## Round trips -/

/-- The address of the currency is read as the currency: a contract is under no reserved prefix,
and in a share has no id that is read as a symbol. -/
def Readable : CurrencyId → Prop
  | .Token _ => True
  | .DexShare left right => left.Distinct ∧ right.Distinct
  | .Erc20 address =>
      H160_PREFIX_TOKEN.isPrefixOf address.asBytes = false ∧
        H160_PREFIX_DEXSHARE.isPrefixOf address.asBytes = false
  | .ChainBridge _ => True

variable {a : EvmAddress} {currencyId : CurrencyId}

theorem encodeEvmAddress_dexShare {left right : DexShare}
    (h : m.encodeEvmAddress (.DexShare left right) = some a) :
    ∃ symbol0 symbol1, m.encodeShare left = some symbol0 ∧ m.encodeShare right = some symbol1 ∧
      symbol0 < 2 ^ 32 ∧ symbol1 < 2 ^ 32 ∧
      a.toNat = 2 ^ 64 + symbol0 * 2 ^ 32 + symbol1 := by
  obtain ⟨symbol0, h0, h⟩ := Option.bind_eq_some_iff.mp h
  obtain ⟨symbol1, h1, h⟩ := Option.bind_eq_some_iff.mp h
  have hlt0 : symbol0 < 2 ^ 32 := (encodeShare_eq h0).1 ▸ left.toU32_lt
  have hlt1 : symbol1 < 2 ^ 32 := (encodeShare_eq h1).1 ▸ right.toU32_lt
  cases h
  exact ⟨symbol0, symbol1, h0, h1, hlt0, hlt1, shareAddress_toNat hlt0 hlt1⟩

/-- **The address of a currency is read back as that currency exactly if it is readable.** -/
theorem decodeEvmAddress_iff (calls : List (EVMBridge × EvmAddress))
    (hmapped : ∀ e, currencyId = .Erc20 e →
      (Machine.run CurrencyIdMap.step ∅ calls).address (DexShare.Erc20 e).toU32 = some e)
    (h : (Machine.run CurrencyIdMap.step ∅ calls).encodeEvmAddress currencyId = some a) :
    (Machine.run CurrencyIdMap.step ∅ calls).decodeEvmAddress a = some currencyId ↔
      Readable currencyId := by
  generalize Machine.run CurrencyIdMap.step ∅ calls = m at hmapped h
  cases currencyId with
  | Token s =>
      have hs := s.toU8_lt
      have ha := tokenAddress_toNat s
      cases h
      rw [decodeEvmAddress_token m (by omega), ha]
      have hlow : (0x1000000 + s.toU8) % 256 = s.toU8 := by omega
      rw [hlow, TokenSymbol.ofU8_toU8]
      exact iff_of_true rfl trivial
  | DexShare left right =>
      obtain ⟨symbol0, symbol1, h0, h1, hlt0, hlt1, ha⟩ := encodeEvmAddress_dexShare h
      have hleft : a.toNat / 2 ^ 32 % 2 ^ 32 = symbol0 := by omega
      have hright : a.toNat % 2 ^ 32 = symbol1 := by omega
      have hhalves : m.decodeShare (toBytes 4 symbol0) = some left ∧
          m.decodeShare (toBytes 4 symbol1) = some right ↔ Readable (.DexShare left right) :=
        and_congr (decodeShare_iff h0) (decodeShare_iff h1)
      rw [decodeEvmAddress_dexShare m (by omega), hleft, hright, ← hhalves]
      cases m.decodeShare (toBytes 4 symbol0) with
      | none => simp
      | some x => cases m.decodeShare (toBytes 4 symbol1) <;> simp
  | Erc20 e =>
      cases h
      rw [Readable, Bool.eq_false_iff, Bool.eq_false_iff, ne_eq, ne_eq,
        EvmAddress.token_prefix_iff, EvmAddress.dexShare_prefix_iff]
      by_cases htoken : a.toNat / 256 = 0x10000
      · rw [decodeEvmAddress_token m htoken]
        refine iff_of_false (fun hs => ?_) fun hnot => hnot.1 htoken
        obtain ⟨s, -, hs⟩ := Option.map_eq_some_iff.mp hs
        cases hs
      · by_cases hshare : a.toNat / 2 ^ 64 = 1
        · rw [decodeEvmAddress_dexShare m hshare]
          refine iff_of_false (fun hs => ?_) fun hnot => hnot.2 hshare
          obtain ⟨left, -, hs⟩ := Option.bind_eq_some_iff.mp hs
          obtain ⟨right, -, hs⟩ := Option.bind_eq_some_iff.mp hs
          cases hs
        · rw [decodeEvmAddress_erc20 m htoken hshare, hmapped a rfl]
          exact iff_of_true rfl ⟨htoken, hshare⟩
  | ChainBridge r => cases h

/-- The address is under a reserved prefix, or it is the contract that its id is mapped to. -/
def Original (m : CurrencyIdMap) (a : EvmAddress) : Prop :=
  H160_PREFIX_TOKEN.isPrefixOf a.asBytes ∨ H160_PREFIX_DEXSHARE.isPrefixOf a.asBytes ∨
    m.address (DexShare.Erc20 a).toU32 = some a

/-- In a map with each contract at its own id. -/
theorem Keyed.encodes_back_iff (hm : m.Keyed) (h : m.decodeEvmAddress a = some currencyId) :
    m.encodeEvmAddress currencyId = some a ↔ m.Original a := by
  have hlt := a.isLt
  rw [Original, EvmAddress.token_prefix_iff, EvmAddress.dexShare_prefix_iff]
  by_cases htoken : a.toNat / 256 = 0x10000
  · rw [decodeEvmAddress_token m htoken] at h
    obtain ⟨s, hs, rfl⟩ := Option.map_eq_some_iff.mp h
    refine iff_of_true ?_ (.inl htoken)
    have hs := TokenSymbol.toU8_ofU8 hs
    refine congrArg some (BitVec.eq_of_toNat_eq ?_)
    rw [tokenAddress_toNat, hs]
    omega
  · by_cases hshare : a.toNat / 2 ^ 64 = 1
    · rw [decodeEvmAddress_dexShare m hshare] at h
      obtain ⟨left, hleft, h⟩ := Option.bind_eq_some_iff.mp h
      obtain ⟨right, hright, h⟩ := Option.bind_eq_some_iff.mp h
      cases h
      refine iff_of_true ?_ (.inr (.inl hshare))
      have hlt0 : a.toNat / 2 ^ 32 % 2 ^ 32 < 2 ^ 32 := by omega
      have hlt1 : a.toNat % 2 ^ 32 < 2 ^ 32 := by omega
      show (m.encodeShare left).bind _ = _
      rw [encodeShare_of_decodeShare hm hlt0 hleft, Option.bind_some]
      show (m.encodeShare right).bind _ = _
      rw [encodeShare_of_decodeShare hm hlt1 hright, Option.bind_some]
      refine congrArg some (BitVec.eq_of_toNat_eq ?_)
      rw [shareAddress_toNat hlt0 hlt1]
      omega
    · rw [decodeEvmAddress_erc20 m htoken hshare] at h
      obtain ⟨e, he, rfl⟩ := Option.map_eq_some_iff.mp h
      rw [he]
      show some e = some a ↔ _
      constructor
      · exact fun h => .inr (.inr h)
      · rintro (h | h | h)
        · exact absurd h htoken
        · exact absurd h hshare
        · exact h

/-- **The currency that an address stands for has that address exactly if the address is an
original one**, and no two original addresses stand for one currency. -/
theorem encodeEvmAddress_iff (calls : List (EVMBridge × EvmAddress))
    (h : (Machine.run CurrencyIdMap.step ∅ calls).decodeEvmAddress a = some currencyId) :
    ((Machine.run CurrencyIdMap.step ∅ calls).encodeEvmAddress currencyId = some a ↔
        (Machine.run CurrencyIdMap.step ∅ calls).Original a) ∧
      ∀ b, (Machine.run CurrencyIdMap.step ∅ calls).decodeEvmAddress b = some currencyId →
        (Machine.run CurrencyIdMap.step ∅ calls).Original a →
        (Machine.run CurrencyIdMap.step ∅ calls).Original b → b = a := by
  have hm := keyed_run calls
  generalize Machine.run CurrencyIdMap.step ∅ calls = m at h hm
  refine ⟨hm.encodes_back_iff h, fun b hb ha horiginal => ?_⟩
  have hencode := (hm.encodes_back_iff h).mpr ha
  rw [(hm.encodes_back_iff hb).mpr horiginal] at hencode
  exact Option.some.inj hencode

end CurrencyIdMap

/-! ## Addresses that are taken for others -/

section Sample

/-- Every contract answers. -/
def sampleBridge : EVMBridge where
  name _ := some [0x54]
  symbol _ := some [0x54]
  decimals _ := some 12

/-- The contract of a test in the source, mapped. -/
def sampleMap : CurrencyIdMap := Machine.run CurrencyIdMap.step ∅ [(sampleBridge, 0x02000000)]

theorem decodeEvmAddress_sample :
    sampleMap.decodeEvmAddress 0x10000000002000000
      = some (.DexShare (.Token .DNAR) (.Erc20 0x02000000)) :=
  (CurrencyIdMap.decodeEvmAddress_iff [(sampleBridge, 0x02000000)] (fun _ h => by cases h)
    (by decide)).mpr ⟨trivial, show 256 ≤ (0x02000000 : EvmAddress).toNat by decide⟩

/-- The mirrored contract of a token can be mapped, as the contract of an ERC-20 currency of its
own. Its address is read as the token. So is, in a share, the id of a contract at a small
address. -/
theorem mirrored_not_readable :
    let m := Machine.run CurrencyIdMap.step ∅ [(sampleBridge, 0x01000002), (sampleBridge, 2)]
    (m.address (DexShare.Erc20 0x01000002).toU32 = some 0x01000002 ∧
      m.encodeEvmAddress (.Erc20 0x01000002) = some 0x01000002 ∧
      m.decodeEvmAddress 0x01000002 = some (.Token .SETT)) ∧
    (m.encodeEvmAddress (.DexShare (.Token .DNAR) (.Erc20 2)) = some 0x10000000000000002 ∧
      m.decodeEvmAddress 0x10000000000000002 = some (.DexShare (.Token .DNAR) (.Token .SETT))) := by
  decide

theorem encodeEvmAddress_sample :
    sampleMap.encodeEvmAddress (.Erc20 0x02000000) = some 0x02000000 :=
  (CurrencyIdMap.encodeEvmAddress_iff (a := 0x02000000) [(sampleBridge, 0x02000000)]
    (by decide)).1.mpr (.inr (.inr (by decide)))

/-- An address that was never mapped, and shares its id with one that is, stands for the currency
of the other. -/
theorem unmapped_stands_for_mapped :
    let a : EvmAddress := 0x0200000000000000000000000000000000000000
    sampleMap.decodeEvmAddress a = some (.Erc20 0x02000000) ∧
      sampleMap.decodeEvmAddress 0x02000000 = some (.Erc20 0x02000000) ∧
      sampleMap.encodeEvmAddress (.Erc20 0x02000000) = some 0x02000000 ∧
      (0x02000000 : EvmAddress) ≠ a := by
  decide

end Sample

end EvmManager

end Setheum
