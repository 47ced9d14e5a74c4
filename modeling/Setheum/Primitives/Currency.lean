import Mathlib.Data.Prod.Lex
import Mathlib.Order.Basic

/-!
# Currencies and trading pairs

The currency identifiers of the chain, their derived order, and trading pairs, which store their
two currencies in that order.

* `TradingPair.new_comm` — a pair does not depend on the order its currencies are named in.
* `TradingPair.fromTokenCurrencyIds_comm` — nor does the check of the two currencies.
* `TradingPair.sides_new` — the two sides of a new pair are the two currencies, as given or
  swapped.
-/

set_option autoImplicit false

namespace Setheum

/-- The token symbols; the discriminants are those of `TokenSymbol.toU8`. -/
inductive TokenSymbol
  | DNAR | DRAM | SETT
  | USDJ | EURJ | JPYJ | GBPJ | AUDJ | CADJ | CHFJ | SGDJ | BRLJ | SARJ
  | NEOM | MENA | NSETT
  | JUSD | JEUR | JJPY | JGBP | JAUD | JCAD | JCHF | JSGD | JBRL | JSAR
  | RENBTC
  | USD | EUR | JPY | GBP | AUD | CAD | CHF | SGD | BRL | SAR
  | KWD | JOD | BHD | KYD | OMR | GIP
  deriving DecidableEq, Repr

namespace TokenSymbol

/-- The discriminant of a symbol, one byte: bit 8 tells the network. -/
def toU8 : TokenSymbol → ℕ
  | DNAR => 0 | DRAM => 1 | SETT => 2
  | USDJ => 3 | EURJ => 4 | JPYJ => 5 | GBPJ => 6 | AUDJ => 7 | CADJ => 8 | CHFJ => 9
  | SGDJ => 10 | BRLJ => 11 | SARJ => 12
  | NEOM => 128 | MENA => 129 | NSETT => 130
  | JUSD => 131 | JEUR => 132 | JJPY => 133 | JGBP => 134 | JAUD => 135 | JCAD => 136
  | JCHF => 137 | JSGD => 138 | JBRL => 139 | JSAR => 140
  | RENBTC => 141
  | USD => 181 | EUR => 182 | JPY => 183 | GBP => 184 | AUD => 185 | CAD => 186 | CHF => 187
  | SGD => 188 | BRL => 189 | SAR => 190
  | KWD => 191 | JOD => 192 | BHD => 193 | KYD => 194 | OMR => 195 | GIP => 196

/-- `TryFrom<u8>`: the symbol with a discriminant. -/
def ofU8 : ℕ → Option TokenSymbol
  | 0 => some DNAR | 1 => some DRAM | 2 => some SETT
  | 3 => some USDJ | 4 => some EURJ | 5 => some JPYJ | 6 => some GBPJ | 7 => some AUDJ
  | 8 => some CADJ | 9 => some CHFJ | 10 => some SGDJ | 11 => some BRLJ | 12 => some SARJ
  | 128 => some NEOM | 129 => some MENA | 130 => some NSETT
  | 131 => some JUSD | 132 => some JEUR | 133 => some JJPY | 134 => some JGBP
  | 135 => some JAUD | 136 => some JCAD | 137 => some JCHF | 138 => some JSGD
  | 139 => some JBRL | 140 => some JSAR
  | 141 => some RENBTC
  | 181 => some USD | 182 => some EUR | 183 => some JPY | 184 => some GBP | 185 => some AUD
  | 186 => some CAD | 187 => some CHF | 188 => some SGD | 189 => some BRL | 190 => some SAR
  | 191 => some KWD | 192 => some JOD | 193 => some BHD | 194 => some KYD | 195 => some OMR
  | 196 => some GIP
  | _ => none

theorem ofU8_toU8 (s : TokenSymbol) : ofU8 s.toU8 = some s := by
  cases s <;> rfl

theorem toU8_ofU8 {n : ℕ} {s : TokenSymbol} (h : ofU8 n = some s) : s.toU8 = n := by
  unfold ofU8 at h
  split at h <;> cases h <;> rfl

theorem toU8_injective : Function.Injective toU8 := by
  intro s t h
  have hst : some s = some t := by rw [← ofU8_toU8 s, h, ofU8_toU8 t]
  exact Option.some.inj hst

theorem toU8_lt (s : TokenSymbol) : s.toU8 < 256 := by
  cases s <;> decide

/-- How many decimals a token has. -/
def decimals : TokenSymbol → ℕ
  | DNAR | DRAM | NEOM | MENA => 10
  | RENBTC => 8
  | _ => 12

theorem decimals_le (s : TokenSymbol) : s.decimals ≤ 12 := by
  cases s <;> decide

end TokenSymbol

/-- A 20-byte address, as the number its big-endian bytes spell. -/
abbrev EvmAddress := BitVec 160

/-- A bridge resource, as the number its 32 big-endian bytes spell. -/
abbrev ResourceId := BitVec 256

/-- One half of a liquidity-share currency. -/
inductive DexShare
  | Token (symbol : TokenSymbol)
  | Erc20 (address : EvmAddress)
  deriving DecidableEq, Repr

inductive CurrencyId
  | Token (symbol : TokenSymbol)
  | DexShare (symbol0 symbol1 : DexShare)
  | Erc20 (address : EvmAddress)
  | ChainBridge (resource : ResourceId)
  deriving DecidableEq, Repr

/-- `TokenInfo::decimals`. -/
def CurrencyId.tokenDecimals : CurrencyId → Option ℕ
  | .Token symbol => some symbol.decimals
  | _ => none

/-- `is_dex_share_currency_id`. -/
def CurrencyId.isDexShareCurrencyId : CurrencyId → Bool
  | .DexShare _ _ => true
  | _ => false

/-- The position of a share half in the derived order: symbols before addresses. -/
def DexShare.key : DexShare → ℕ
  | .Token s => s.toU8
  | .Erc20 e => 256 + e.toNat

theorem DexShare.key_injective : Function.Injective DexShare.key := by
  intro x y h
  cases x with
  | Token s =>
      cases y with
      | Token t => rw [TokenSymbol.toU8_injective h]
      | Erc20 e =>
          have hs := s.toU8_lt
          simp only [key] at h
          omega
  | Erc20 e =>
      cases y with
      | Token t =>
          have ht := t.toU8_lt
          simp only [key] at h
          omega
      | Erc20 f =>
          have hef : e.toNat = f.toNat := Nat.add_left_cancel h
          rw [BitVec.eq_of_toNat_eq hef]

namespace CurrencyId

/-- The position of a currency in the derived order: by variant, then by contents. -/
def key : CurrencyId → ℕ ×ₗ ℕ ×ₗ ℕ
  | Token s => toLex (0, toLex (s.toU8, 0))
  | DexShare x y => toLex (1, toLex (x.key, y.key))
  | Erc20 e => toLex (2, toLex (e.toNat, 0))
  | ChainBridge r => toLex (3, toLex (r.toNat, 0))

theorem key_injective : Function.Injective key := by
  intro x y h
  cases x <;> cases y <;> simp [key] at h
  · rw [TokenSymbol.toU8_injective h]
  · rw [DexShare.key_injective h.1, DexShare.key_injective h.2]
  · rw [BitVec.eq_of_toNat_eq h]
  · rw [BitVec.eq_of_toNat_eq h]

instance : LinearOrder CurrencyId := LinearOrder.lift' key key_injective

def isTokenCurrencyId : CurrencyId → Bool
  | Token _ => true
  | _ => false

def isErc20CurrencyId : CurrencyId → Bool
  | Erc20 _ => true
  | _ => false

/-- The share half that stands for a currency, when it can be pooled. -/
def toDexShare : CurrencyId → Option Setheum.DexShare
  | Token s => some (.Token s)
  | Erc20 e => some (.Erc20 e)
  | _ => none

def joinDexShareCurrencyId (currencyId0 currencyId1 : CurrencyId) : Option CurrencyId := do
  let tokenSymbol0 ← currencyId0.toDexShare
  let tokenSymbol1 ← currencyId1.toDexShare
  return DexShare tokenSymbol0 tokenSymbol1

end CurrencyId

/-- A trading pair; `currency0` and `currency1` are the source's `.0` and `.1`. -/
structure TradingPair where
  currency0 : CurrencyId
  currency1 : CurrencyId
  deriving DecidableEq, Repr

namespace TradingPair

/-- The pair of two currencies, the smaller one first. -/
def new (currencyIdA currencyIdB : CurrencyId) : TradingPair :=
  if currencyIdA > currencyIdB then ⟨currencyIdB, currencyIdA⟩ else ⟨currencyIdA, currencyIdB⟩

/-- The pair of two currencies that can be pooled, tokens or ERC-20 contracts. -/
def fromTokenCurrencyIds (currencyId0 currencyId1 : CurrencyId) : Option TradingPair :=
  if (currencyId0.isTokenCurrencyId || currencyId0.isErc20CurrencyId)
      && (currencyId1.isTokenCurrencyId || currencyId1.isErc20CurrencyId) then
    some (new currencyId1 currencyId0)
  else none

def getDexShareCurrencyId (p : TradingPair) : Option CurrencyId :=
  CurrencyId.joinDexShareCurrencyId p.currency0 p.currency1

/-- A share currency belongs to one pair. -/
theorem eq_of_getDexShareCurrencyId {p q : TradingPair} {c : CurrencyId}
    (hp : p.getDexShareCurrencyId = some c) (hq : q.getDexShareCurrencyId = some c) : p = q := by
  have hhalf : ∀ {x y : CurrencyId} {d : DexShare}, x.toDexShare = some d →
      y.toDexShare = some d → x = y := by
    intro x y d hx hy
    cases x <;> cases y <;> simp_all [CurrencyId.toDexShare] <;> grind
  obtain ⟨a, b⟩ := p
  obtain ⟨a', b'⟩ := q
  simp only [getDexShareCurrencyId, CurrencyId.joinDexShareCurrencyId, Option.bind_eq_bind,
    Option.bind_eq_some_iff, Option.pure_def, Option.some.injEq] at hp hq
  obtain ⟨d, hd, e, he, rfl⟩ := hp
  obtain ⟨d', hd', e', he', heq⟩ := hq
  cases heq
  rw [hhalf hd hd', hhalf he he']

theorem new_comm (a b : CurrencyId) : new a b = new b a := by
  unfold new
  rcases lt_trichotomy a b with h | rfl | h
  · rw [if_neg h.le.not_gt, if_pos h]
  · rfl
  · rw [if_pos h, if_neg h.le.not_gt]

theorem fromTokenCurrencyIds_comm (a b : CurrencyId) :
    fromTokenCurrencyIds a b = fromTokenCurrencyIds b a := by
  unfold fromTokenCurrencyIds
  rw [new_comm, Bool.and_comm]

theorem fromTokenCurrencyIds_eq_new {a b : CurrencyId} {p : TradingPair}
    (h : fromTokenCurrencyIds a b = some p) : new a b = p := by
  unfold fromTokenCurrencyIds at h
  split at h
  · cases h
    exact new_comm a b
  · cases h

/-- The two sides of a pair are the currencies it was made of. -/
theorem sides_new (a b : CurrencyId) :
    ((new a b).currency0 = a ∧ (new a b).currency1 = b) ∨
      ((new a b).currency0 = b ∧ (new a b).currency1 = a) := by
  unfold new
  split
  · exact .inr ⟨rfl, rfl⟩
  · exact .inl ⟨rfl, rfl⟩

/-- Both currencies can be pooled and stand in order. -/
def Valid (p : TradingPair) : Prop := fromTokenCurrencyIds p.currency0 p.currency1 = some p

theorem valid_of_fromTokenCurrencyIds {a b : CurrencyId} {p : TradingPair}
    (h : fromTokenCurrencyIds a b = some p) : Valid p := by
  have hnew := fromTokenCurrencyIds_eq_new h
  rcases sides_new a b with ⟨h0, h1⟩ | ⟨h0, h1⟩
  · rw [hnew] at h0 h1
    rw [Valid, h0, h1, h]
  · rw [hnew] at h0 h1
    rw [Valid, h0, h1, fromTokenCurrencyIds_comm, h]

/-- Any two currencies whose pair is valid are accepted as that pair. -/
theorem fromTokenCurrencyIds_of_valid {a b : CurrencyId} (h : Valid (new a b)) :
    fromTokenCurrencyIds a b = some (new a b) := by
  rcases sides_new a b with ⟨h0, h1⟩ | ⟨h0, h1⟩
  · rw [Valid, h0, h1] at h
    exact h
  · rw [Valid, h0, h1] at h
    rw [fromTokenCurrencyIds_comm]
    exact h

end TradingPair

end Setheum
