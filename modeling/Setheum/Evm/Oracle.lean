import Setheum.Evm.Input
import Setheum.Prices.Units

/-!
# The oracle precompile

A contract asks for the price of a whole unit of a currency, with the currency's address. The
price provider divides by ten to the power of the currency's decimals, and the precompile by ten to
the power of what is left of 18 decimals. Where the price or the decimals are missing, or the power
does not fit, the price is meant to be 0.

What is left of 18 decimals is a subtraction of 8 bits, and a power that does not fit leaves 0 for
the divisor too.

* `exact_iff` — exactly when the precompile answers with the price.
-/

set_option autoImplicit false

namespace Setheum.Prices

open Checked

variable (b : Build) (cfg : Config) (s : State)

/-! ## Prices as the program was built

The one addition of the price provider that can overflow is that of the Setter's basket. -/

/-- The price of the basket where the addition wraps around. -/
def wrappedBasketPegPrice : Answer := do
  let pegPrices ← cfg.setterPegCurrencyIds.mapM (getFiatPrice cfg s)
  okOr (FixedU128.checkedDiv (pegPrices.sum % (Balance.maxValue + 1)) (priceTryFromBalance 10))

/-- The price of one base unit of the Setter, or of a share of it, by a price of the basket. -/
def priceByBasket (c : CurrencyId) (basket : Answer) : Answer :=
  match c with
  | .DexShare symbol0 symbol1 =>
      sharePrice s c symbol0 symbol1 (adjusted s (token symbol0) basket)
  | c => adjusted s c basket

/-- `get_price`, where an addition that overflows panics or wraps around. -/
def builtPrice (c : CurrencyId) : Checked String (Option ℕ) :=
  if getPrice cfg s c = .error .overflow then
    if b.overflowChecks then panicked
    else .ok (priceByBasket s c (wrappedBasketPegPrice cfg s)).toOption
  else .ok (getPrice cfg s c).toOption

variable {b cfg s}

theorem builtPrice_of_answer {c : CurrencyId} {answer : Answer} (h : getPrice cfg s c = answer)
    (hne : answer ≠ .error .overflow) : builtPrice b cfg s c = .ok answer.toOption := by
  rw [builtPrice, h, if_neg hne]

/-- Without overflow checks, or without an overflow, there is an answer. -/
theorem builtPrice_answers_iff {c : CurrencyId} :
    (∃ maybePrice, builtPrice b cfg s c = .ok maybePrice) ↔
      (getPrice cfg s c = .error .overflow → b.overflowChecks = false) := by
  unfold builtPrice
  by_cases hoverflow : getPrice cfg s c = .error .overflow
  · rw [if_pos hoverflow]
    cases hchecks : b.overflowChecks with
    | true => simp [panicked, hoverflow]
    | false => simp [hoverflow]
  · rw [if_neg hoverflow]
    simp [hoverflow]

theorem adjusted_le {c : CurrencyId} {answer : Answer} {x : ℕ}
    (h : adjusted s c answer = .ok x) : x ≤ Balance.maxValue := by
  cases answer with
  | error e =>
      simp only [adjusted, error_bind] at h
      cases h
  | ok p =>
      cases hd : s.decimals c with
      | none =>
          simp only [adjusted, hd, ok_bind, okOr_none, error_bind] at h
          cases h
      | some d =>
          have hratio := checkedFromRational_of_adjusted hd h
          exact (FixedU128.checkedFromRational_eq_some.mp hratio).2.2

theorem sharePrice_le {c : CurrencyId} {symbol0 symbol1 : DexShare} {price0 : Answer} {x : ℕ}
    (h : sharePrice s c symbol0 symbol1 price0 = .ok x) : x ≤ Balance.maxValue := by
  cases price0 with
  | error e =>
      rw [sharePrice, error_bind] at h
      cases h
  | ok p =>
      rw [sharePrice, ok_bind] at h
      cases hratio : FixedU128.checkedFromRational
          (s.liquidityPool (token symbol0) (token symbol1)).1 (s.totalIssuance c) with
      | none =>
          rw [hratio, okOr_none, error_bind] at h
          cases h
      | some ratio =>
          rw [hratio, okOr_some, ok_bind] at h
          cases hhalf : FixedU128.checkedMul ratio p with
          | none =>
              rw [hhalf, okOr_none, error_bind] at h
              cases h
          | some half =>
              rw [hhalf, okOr_some, ok_bind] at h
              exact FixedU128.checkedMul_le_maxValue (okOr_ok.mp h)

/-- A price fits a balance. -/
theorem builtPrice_le {c : CurrencyId} {x : ℕ} (h : builtPrice b cfg s c = .ok (some x)) :
    x ≤ Balance.maxValue := by
  have hsome : ∀ {answer : Answer}, answer.toOption = some x → answer = .ok x := by
    intro answer hanswer
    cases answer with
    | error e => cases hanswer
    | ok y =>
        cases hanswer
        rfl
  unfold builtPrice at h
  split at h
  · split at h
    · cases h
    · have hprice := hsome (Except.ok.inj h)
      unfold priceByBasket at hprice
      split at hprice
      · exact sharePrice_le hprice
      · exact adjusted_le hprice
  · have hprice := hsome (Except.ok.inj h)
    unfold getPrice getTokenPrice at hprice
    split at hprice
    · exact adjusted_le hprice
    · split at hprice
      · exact sharePrice_le hprice
      · exact adjusted_le hprice

/-- A currency that is no share has no price if ten to the power of its decimals does not fit. -/
theorem builtPrice_of_not_fits {c : CurrencyId} (hc : ∀ x y, c ≠ .DexShare x y) {d : ℕ}
    (hd : s.decimals c = some d) (hfits : ¬ 10 ^ d ≤ Balance.maxValue) {maybePrice : Option ℕ}
    (h : builtPrice b cfg s c = .ok maybePrice) : maybePrice = none := by
  have hnone : ∀ answer, (adjusted s c answer).toOption = none := by
    intro answer
    cases answer with
    | error e => rfl
    | ok p =>
        rw [adjusted_of_not_fits hd hfits]
        rfl
  unfold builtPrice at h
  rw [getPrice_eq hc, hnone] at h
  have hbasket : priceByBasket s c (wrappedBasketPegPrice cfg s)
      = adjusted s c (wrappedBasketPegPrice cfg s) := by
    cases c with
    | DexShare x y => exact absurd rfl (hc x y)
    | _ => rfl
  rw [hbasket, hnone] at h
  split at h
  · split at h
    · cases h
    · exact (Except.ok.inj h).symm
  · exact (Except.ok.inj h).symm

/-- The price of one base unit, while the adjustment fits. -/
theorem getPrice_of_wholePrice {c : CurrencyId} (hc : ∀ x y, c ≠ .DexShare x y) {d p : ℕ}
    (hd : s.decimals c = some d) (hle : d ≤ 18) (hp : wholePrice cfg s c = .ok p)
    (hfits : p * 10 ^ (18 - d) ≤ Balance.maxValue) :
    getPrice cfg s c = .ok (p * 10 ^ (18 - d)) := by
  have hexact : p * FixedU128.accuracy = p * 10 ^ (18 - d) * 10 ^ d := by
    rw [Nat.mul_assoc, ← Nat.pow_add, Nat.sub_add_cancel hle]
    rfl
  rw [getPrice_eq hc, hp, adjusted_ok hd (Balance.ten_pow_le_iff.mpr (by omega)),
    FixedU128.checkedFromRational_exact (Nat.pow_pos (by decide)) hexact hfits]
  rfl

end Setheum.Prices

namespace Setheum.Evm.OraclePrecompile

open Checked BigEndian InputT Prices

variable (b : Build) (cfg : Prices.Config) (s : Prices.State) (m : EvmManager.CurrencyIdMap)

/-! ## The precompile -/

/-- `vec_u8_from_price`. -/
def vecU8FromPrice (price adjustmentMultiplier : ℕ) : Checked String (List UInt8) := do
  let integer ← Checked.div price adjustmentMultiplier
  pure (toBytes 32 integer)

/-- The output for what the price provider and the map answer. -/
def priceOutput (maybePrice maybeDecimals : Option ℕ) : Checked String (List UInt8) := do
  let price := if maybeDecimals.isSome then maybePrice.getD 0 else 0
  let exponent ← b.sub 256 18 (maybeDecimals.getD 0)
  match Balance.checkedPow 10 exponent with
  | some adjustmentMultiplier => vecU8FromPrice price adjustmentMultiplier
  | none => vecU8FromPrice 0 0

def mappings : Mappings Action Unit where
  tryFrom := Action.tryFrom
  getAccountId _ := ()
  decodeEvmAddress := m.decodeEvmAddress

/-- The prices of currencies whose decimals are those of the map. -/
def priceState : Prices.State := { s with decimals := m.decimals }

/-- The output and the gas that it costs; the precompile always exits as returned. -/
def execute (content : List UInt8) : Checked String (List UInt8 × ℕ) := do
  let action ← InputT.action b content (mappings m)
  match action with
  | .GetPrice => do
      let currencyId ← currencyIdAt b content (mappings m) 1
      let maybePrice ← builtPrice b cfg (priceState s m) currencyId
      let output ← priceOutput b maybePrice (m.decimals currencyId)
      pure (output, 0)

/-! ## What it is meant to answer -/

/-- The word for the price of a whole unit: the price if it is available and the adjustment to the
decimals fits, and 0 if the price or the decimals are missing or there are too many. -/
structure Exact (currencyId : CurrencyId) (output : List UInt8) : Prop where
  length : output.length = 32
  price : ∀ d p, (∀ x y, currencyId ≠ .DexShare x y) → m.decimals currencyId = some d → d ≤ 18 →
    wholePrice cfg (priceState s m) currencyId = .ok p →
    p * 10 ^ (18 - d) ≤ Balance.maxValue → ofBytes output = p
  unavailable : getPrice cfg (priceState s m) currencyId = .error .unavailable →
    ofBytes output = 0
  undecimated : m.decimals currencyId = none → ofBytes output = 0
  unrepresentable : ∀ d, m.decimals currencyId = some d → 18 < d → ofBytes output = 0

/-- The basket of the Setter does not overflow where that panics, and the currency has at most 18
decimals. It may have 236 or more where the subtraction wraps around to a power that fits, if the
price is below that power. -/
def Representable (currencyId : CurrencyId) : Prop :=
  (getPrice cfg (priceState s m) currencyId = .error .overflow → b.overflowChecks = false) ∧
    ∀ d, m.decimals currencyId = some d → 18 < d →
      b.overflowChecks = false ∧ 236 ≤ d ∧
        ∀ x, builtPrice b cfg (priceState s m) currencyId = .ok (some x) → x < 10 ^ (274 - d)

variable {b cfg s m}

/-! ## The output, by the decimals -/

theorem vecU8FromPrice_of_ne_zero {price adjustmentMultiplier : ℕ} (h : adjustmentMultiplier ≠ 0) :
    vecU8FromPrice price adjustmentMultiplier
      = .ok (toBytes 32 (price / adjustmentMultiplier)) := by
  rw [vecU8FromPrice, Checked.div, if_neg h]
  rfl

theorem vecU8FromPrice_zero (price : ℕ) : vecU8FromPrice price 0 = panicked := rfl

/-- The output for an exponent that could be computed. -/
theorem priceOutput_of_exponent {maybePrice : Option ℕ} {d e : ℕ}
    (h : (b.sub 256 18 d : Checked String ℕ) = .ok e) :
    priceOutput b maybePrice (some d) =
      if e ≤ 38 then .ok (toBytes 32 (maybePrice.getD 0 / 10 ^ e)) else panicked := by
  have hbind : priceOutput b maybePrice (some d) =
      match Balance.checkedPow 10 e with
      | some adjustmentMultiplier => vecU8FromPrice (maybePrice.getD 0) adjustmentMultiplier
      | none => vecU8FromPrice 0 0 := by
    rw [priceOutput, Option.getD_some, h]
    rfl
  rw [hbind, Balance.checkedPow]
  by_cases he : e ≤ 38
  · rw [if_pos (Balance.ten_pow_le_iff.mpr he), if_pos he]
    exact vecU8FromPrice_of_ne_zero (Nat.pow_pos (by decide)).ne'
  · rw [if_neg (fun hfits => he (Balance.ten_pow_le_iff.mp hfits)), if_neg he]
    exact vecU8FromPrice_zero 0

theorem priceOutput_none (maybePrice : Option ℕ) :
    priceOutput b maybePrice none = .ok (toBytes 32 0) := by
  have hsub : (b.sub 256 18 0 : Checked String ℕ) = .ok 18 := Build.sub_of_le (by decide)
  have hpow : Balance.checkedPow 10 18 = some (10 ^ 18) := by decide
  rw [priceOutput, Option.getD_none, hsub]
  show (match Balance.checkedPow 10 18 with
    | some adjustmentMultiplier => vecU8FromPrice 0 adjustmentMultiplier
    | none => vecU8FromPrice 0 0) = _
  rw [hpow]
  exact vecU8FromPrice_of_ne_zero (by decide)

theorem priceOutput_of_le {maybePrice : Option ℕ} {d : ℕ} (hd : d ≤ 18) :
    priceOutput b maybePrice (some d)
      = .ok (toBytes 32 (maybePrice.getD 0 / 10 ^ (18 - d))) := by
  rw [priceOutput_of_exponent (Build.sub_of_le hd), if_pos (by omega)]

/-- With overflow checks more than 18 decimals are a panic. -/
theorem priceOutput_of_checked {maybePrice : Option ℕ} {d : ℕ} (hd : 18 < d)
    (hchecks : b.overflowChecks = true) : priceOutput b maybePrice (some d) = panicked := by
  have hsub : (b.sub 256 18 d : Checked String ℕ) = panicked := by
    rw [Build.sub_of_lt hd, hchecks]
    rfl
  rw [priceOutput, Option.getD_some, hsub]
  rfl

/-- Without them only a power that does not fit is. -/
theorem priceOutput_of_unchecked {maybePrice : Option ℕ} {d : ℕ} (hd : 18 < d) (hlt : d < 256)
    (hchecks : b.overflowChecks = false) :
    priceOutput b maybePrice (some d) =
      if 236 ≤ d then .ok (toBytes 32 (maybePrice.getD 0 / 10 ^ (274 - d))) else panicked := by
  have hsub : (b.sub 256 18 d : Checked String ℕ) = .ok (256 + 18 - d) := by
    rw [Build.sub_of_lt hd, hchecks]
    rfl
  rw [priceOutput_of_exponent hsub]
  by_cases hlarge : 236 ≤ d
  · rw [if_pos (by omega), if_pos hlarge]
  · rw [if_neg (by omega), if_neg hlarge]

/-! ## Answers -/

theorem ofBytes_word {n : ℕ} (h : n ≤ Balance.maxValue) : ofBytes (toBytes 32 n) = n := by
  rw [ofBytes_toBytes]
  refine Nat.mod_eq_of_lt (lt_of_le_of_lt h ?_)
  decide

variable {currencyId : CurrencyId} {maybePrice : Option ℕ}

theorem exact_zero_of_missing (h : m.decimals currencyId = none) :
    Exact cfg s m currencyId (toBytes 32 0) where
  length := length_toBytes ..
  price d p _ hd := by
    rw [h] at hd
    cases hd
  unavailable _ := ofBytes_word (Nat.zero_le _)
  undecimated _ := ofBytes_word (Nat.zero_le _)
  unrepresentable d hd := by
    rw [h] at hd
    cases hd

/-- The price is multiplied by the power that is divided by. -/
theorem exact_of_le (hprice : builtPrice b cfg (priceState s m) currencyId = .ok maybePrice)
    {d : ℕ} (hd : m.decimals currencyId = some d) (hle : d ≤ 18) :
    Exact cfg s m currencyId (toBytes 32 (maybePrice.getD 0 / 10 ^ (18 - d))) where
  length := length_toBytes ..
  price d' p hc hd' _ hp hfits := by
    obtain rfl : d = d' := Option.some.inj (hd.symm.trans hd')
    have hget := getPrice_of_wholePrice hc hd hle hp hfits
    have hbuilt := builtPrice_of_answer (b := b) hget nofun
    rw [hprice] at hbuilt
    obtain rfl : maybePrice = some (p * 10 ^ (18 - d)) := Except.ok.inj hbuilt
    have hpos : 0 < 10 ^ (18 - d) := Nat.pow_pos (by decide)
    rw [Option.getD_some, Nat.mul_div_cancel p hpos]
    exact ofBytes_word ((Nat.le_mul_of_pos_right p hpos).trans hfits)
  unavailable hget := by
    have hbuilt := builtPrice_of_answer (b := b) hget nofun
    rw [hprice] at hbuilt
    obtain rfl : maybePrice = none := Except.ok.inj hbuilt
    rw [Option.getD_none, Nat.zero_div]
    exact ofBytes_word (Nat.zero_le _)
  undecimated hnone := by
    rw [hd] at hnone
    cases hnone
  unrepresentable d' hd' hlt := by
    obtain rfl : d = d' := Option.some.inj (hd.symm.trans hd')
    omega

/-- With too many decimals the answer must be 0. -/
theorem exact_iff_of_lt (hprice : builtPrice b cfg (priceState s m) currencyId = .ok maybePrice)
    {d e : ℕ} (hd : m.decimals currencyId = some d) (hlt : 18 < d) :
    Exact cfg s m currencyId (toBytes 32 (maybePrice.getD 0 / 10 ^ e)) ↔
      ∀ x, maybePrice = some x → x < 10 ^ e := by
  have hpos : 0 < 10 ^ e := Nat.pow_pos (by decide)
  constructor
  · rintro hexact x rfl
    have hzero := hexact.unrepresentable d hd hlt
    have hx := builtPrice_le hprice
    rw [Option.getD_some, ofBytes_word ((Nat.div_le_self x _).trans hx)] at hzero
    exact (Nat.div_eq_zero_iff_lt hpos).mp hzero
  · intro hsmall
    have hzero : ofBytes (toBytes 32 (maybePrice.getD 0 / 10 ^ e)) = 0 := by
      cases maybePrice with
      | none =>
          rw [Option.getD_none, Nat.zero_div]
          exact ofBytes_word (Nat.zero_le _)
      | some x =>
          rw [Option.getD_some, Nat.div_eq_of_lt (hsmall x rfl)]
          exact ofBytes_word (Nat.zero_le _)
    refine ⟨length_toBytes .., fun d' p _ hd' hle => ?_, fun _ => hzero, fun _ => hzero,
      fun _ _ _ => hzero⟩
    obtain rfl : d = d' := Option.some.inj (hd.symm.trans hd')
    omega

/-- What is put out for the price that was found, by the decimals. -/
theorem priceOutput_exact_iff (hm : m.DecimalsInRange)
    (hprice : builtPrice b cfg (priceState s m) currencyId = .ok maybePrice) :
    (∃ output, priceOutput b maybePrice (m.decimals currencyId) = .ok output ∧
        Exact cfg s m currencyId output) ↔
      ∀ d, m.decimals currencyId = some d → 18 < d →
        b.overflowChecks = false ∧ 236 ≤ d ∧ ∀ x, maybePrice = some x → x < 10 ^ (274 - d) := by
  cases hdecimals : m.decimals currencyId with
  | none =>
      refine iff_of_true ⟨_, priceOutput_none maybePrice, exact_zero_of_missing hdecimals⟩ ?_
      intro d hd
      cases hd
  | some d =>
      have hcond : ∀ {P : ℕ → Prop}, (∀ d', some d = some d' → 18 < d' → P d') ↔ (18 < d → P d) :=
        ⟨fun h => h d rfl, fun h d' hd' => Option.some.inj hd' ▸ h⟩
      rw [hcond]
      by_cases hle : d ≤ 18
      · exact iff_of_true ⟨_, priceOutput_of_le hle, exact_of_le hprice hdecimals hle⟩
          fun hlt => absurd hle (by omega)
      · have hlt : 18 < d := by omega
        cases hchecks : b.overflowChecks with
        | true =>
            rw [priceOutput_of_checked hlt hchecks]
            refine iff_of_false ?_ fun h => Bool.noConfusion (h hlt).1
            rintro ⟨output, houtput, -⟩
            cases houtput
        | false =>
            rw [priceOutput_of_unchecked hlt (hm.decimals_lt hdecimals) hchecks]
            by_cases hlarge : 236 ≤ d
            · have hexact := exact_iff_of_lt (e := 274 - d) hprice hdecimals hlt
              rw [if_pos hlarge]
              constructor
              · rintro ⟨output, houtput, h⟩ _
                cases houtput
                exact ⟨rfl, hlarge, hexact.mp h⟩
              · intro h
                exact ⟨_, rfl, hexact.mpr (h hlt).2.2⟩
            · rw [if_neg hlarge]
              refine iff_of_false ?_ fun h => hlarge (h hlt).2.1
              rintro ⟨output, houtput, -⟩
              cases houtput

/-- The price of a currency that is no share is then missing. -/
theorem representable_iff (hc : ∀ x y, currencyId ≠ .DexShare x y) :
    Representable b cfg s m currencyId ↔
      (getPrice cfg (priceState s m) currencyId = .error .overflow → b.overflowChecks = false) ∧
        ∀ d, m.decimals currencyId = some d → 18 < d → b.overflowChecks = false ∧ 236 ≤ d := by
  refine and_congr_right fun _ => forall_congr' fun d => forall_congr' fun hd =>
    forall_congr' fun _ => and_congr_right fun _ => and_iff_left_of_imp fun hlarge x hx => ?_
  have hnot : ¬ 10 ^ d ≤ Balance.maxValue := fun h => by
    have hle := Balance.ten_pow_le_iff.mp h
    omega
  have hnone := builtPrice_of_not_fits hc (s := priceState s m) hd hnot hx
  cases hnone

/-- An input that asks for the price of the contract at `0x02000000`. -/
def getPriceInput : List UInt8 := sampleInput 0x41976e09 [0x02000000]

def nineteenBridge : EvmManager.EVMBridge := { EvmManager.sampleBridge with decimals _ := some 19 }

def nineteenMap : EvmManager.CurrencyIdMap :=
  Machine.run EvmManager.CurrencyIdMap.step ∅ [(nineteenBridge, 0x02000000)]

end Setheum.Evm.OraclePrecompile
