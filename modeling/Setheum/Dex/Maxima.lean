import Setheum.Dex.ShareValue

/-!
# The maxima of a liquidity provider

Liquidity is added at the price of the pool. The offered price, rounded to 18 decimals, tells which
of the two maxima is used up; the other amount follows from the pool's price. A price that has no
representation is read as zero. The offer then seems to be short of the second currency, all of
which is used up, and the first amount that goes with it need not be within its maximum.

* `liquidityIncrement_uses` — one of the maxima is used up.
* `liquidityIncrement_within_iff` — when the other is respected.
* `covers_of_ratio` — an offer that is not above the pool's price is respected, save for rounding.
* `add_liquidity_within_iff` — what a call takes from its caller.
-/

set_option autoImplicit false

namespace Setheum.Dex

open StorageMap Dispatch

variable {pool maxAmount amount : ℕ × ℕ} {total : ℕ}

/-- The offered price is above the pool's, both in 18 decimals. -/
def OffersMore (pool maxAmount : ℕ × ℕ) : Prop :=
  (FixedU128.checkedFromRational pool.2 pool.1).getD 0
    < (FixedU128.checkedFromRational maxAmount.2 maxAmount.1).getD 0

/-- The first maximum is worth the second one at the pool's price, up to rounding. -/
def Covers (pool maxAmount : ℕ × ℕ) : Prop :=
  let worth := (FixedU128.checkedFromRational pool.1 pool.2).getD 0 * maxAmount.2
  maxAmount.1 = Balance.maxValue ∨
    worth ≤ maxAmount.1 * FixedU128.accuracy + FixedU128.slack worth

/-- Amounts within the maxima, one of which they use up. -/
structure Within (maxAmount amount : ℕ × ℕ) : Prop where
  fst_le : amount.1 ≤ maxAmount.1
  snd_le : amount.2 ≤ maxAmount.2
  uses : amount.1 = maxAmount.1 ∨ amount.2 = maxAmount.2

instance : Decidable (OffersMore pool maxAmount) := inferInstanceAs (Decidable (_ < _))

theorem liquidityIncrement_uses (total : ℕ) (pool maxAmount : ℕ × ℕ) :
    (liquidityIncrement total pool maxAmount).1.1 = maxAmount.1 ∨
      (liquidityIncrement total pool maxAmount).1.2 = maxAmount.2 := by
  unfold liquidityIncrement
  split
  · exact .inl rfl
  · dsimp only
    split
    · exact .inr rfl
    · exact .inl rfl

/-- At a price below the offered one, the first maximum is worth at most the second. -/
theorem OffersMore.second_le (h : OffersMore pool maxAmount)
    (hmax : maxAmount.2 ≤ Balance.maxValue) :
    FixedU128.saturatingMulInt ((FixedU128.checkedFromRational pool.2 pool.1).getD 0) maxAmount.1
      ≤ maxAmount.2 := by
  unfold OffersMore at h
  generalize (FixedU128.checkedFromRational pool.2 pool.1).getD 0 = price at h ⊢
  cases hoffer : FixedU128.checkedFromRational maxAmount.2 maxAmount.1 with
  | none =>
      rw [hoffer] at h
      cases h
  | some offer =>
      rw [hoffer, Option.getD_some] at h
      obtain ⟨hpos, rfl, -⟩ := FixedU128.checkedFromRational_eq_some.mp hoffer
      apply FixedU128.saturatingMulInt_le_of_mul_le hmax
      -- the price is a whole unit below the offer, which is less than a unit above the exact ratio
      have hwithin := (FixedU128.quotient_within (maxAmount.2 * FixedU128.accuracy) hpos).1
      have hprice : (price + 1) * maxAmount.1
          ≤ FixedU128.quotient (maxAmount.2 * FixedU128.accuracy) maxAmount.1 * maxAmount.1 :=
        Nat.mul_le_mul_right _ h
      rw [Nat.add_mul, Nat.one_mul] at hprice
      omega

theorem liquidityIncrement_within_iff (hmax0 : maxAmount.1 ≤ Balance.maxValue)
    (hmax1 : maxAmount.2 ≤ Balance.maxValue) :
    Within maxAmount (liquidityIncrement total pool maxAmount).1 ↔
      total = 0 ∨ OffersMore pool maxAmount ∨ Covers pool maxAmount := by
  have huses := liquidityIncrement_uses total pool maxAmount
  by_cases htotal : total = 0
  · have hall : (liquidityIncrement total pool maxAmount).1 = maxAmount := by
      unfold liquidityIncrement
      rw [if_pos htotal]
    rw [hall] at huses ⊢
    exact ⟨fun _ => .inl htotal, fun _ => ⟨Nat.le_refl _, Nat.le_refl _, huses⟩⟩
  · by_cases hmore : OffersMore pool maxAmount
    · have hprice := not_le.mpr hmore
      have hfirst : (liquidityIncrement total pool maxAmount).1.1 = maxAmount.1 := by
        unfold liquidityIncrement
        rw [if_neg htotal]
        dsimp only
        rw [if_neg hprice]
      have hsecond : (liquidityIncrement total pool maxAmount).1.2 ≤ maxAmount.2 := by
        unfold liquidityIncrement
        rw [if_neg htotal]
        dsimp only
        rw [if_neg hprice]
        exact hmore.second_le hmax1
      exact ⟨fun _ => .inr (.inl hmore), fun _ => ⟨hfirst.le, hsecond, huses⟩⟩
    · have hprice := not_lt.mp hmore
      have hfirst : (liquidityIncrement total pool maxAmount).1.1 ≤ maxAmount.1 ↔
          Covers pool maxAmount := by
        unfold liquidityIncrement
        rw [if_neg htotal]
        dsimp only
        rw [if_pos hprice]
        exact FixedU128.saturatingMulInt_le_iff hmax0
      have hsecond : (liquidityIncrement total pool maxAmount).1.2 = maxAmount.2 := by
        unfold liquidityIncrement
        rw [if_neg htotal]
        dsimp only
        rw [if_pos hprice]
      constructor
      · intro hwithin
        exact .inr (.inr (hfirst.mp hwithin.fst_le))
      · rintro (hnone | hmore' | hcovers)
        · exact absurd hnone htotal
        · exact absurd hmore' hmore
        · exact ⟨hfirst.mpr hcovers, hsecond.le, huses⟩

/-- **An offer that is not above the pool's price is respected**, if it is rounded down. -/
theorem covers_of_ratio (hpool : 0 < pool.2) (hmax0 : maxAmount.1 ≤ Balance.maxValue)
    (hdown : FixedU128.PartRoundsDown pool.1 pool.2 maxAmount.2)
    (hratio : maxAmount.2 * pool.1 ≤ maxAmount.1 * pool.2) : Covers pool maxAmount := by
  apply (FixedU128.saturatingMulInt_le_iff hmax0).mp
  have hpart := FixedU128.saturatingMulInt_mul_le hdown
  rw [Nat.mul_comm pool.1] at hpart
  exact Nat.le_of_mul_le_mul_right (hpart.trans hratio) hpool

/-! ## What a call takes -/

section Calls

variable {A E : Type} [DecidableEq A] {cfg : Config A E} {s s' : State A E} {who : A}

/-- Two amounts are taken from an account into the pool of a pair. -/
def TakesIn (cfg : Config A E) (who : A) (p : TradingPair) (amount : ℕ × ℕ) (s s' : State A E) :
    Prop :=
  (∃ l₁ l₂, Ledger.transfer cfg.rules p.currency0 who cfg.accountId amount.1 s.ledger = .ok l₁ ∧
    Ledger.transfer cfg.rules p.currency1 who cfg.accountId amount.2 l₁ = .ok l₂) ∧
  s'.pool p = addPair (s.pool p) amount

/-- What adding liquidity takes. -/
theorem doAddLiquidity_takes {a b : CurrencyId} {x y m : ℕ} {d : Bool} {u : Unit}
    (h : (doAddLiquidity cfg who a b x y m d).run s = .ok u s') :
    ∃ lp, (TradingPair.new a b).getDexShareCurrencyId = some lp ∧
      TakesIn cfg who (TradingPair.new a b)
        (liquidityIncrement (s.ledger.issuance lp) (s.pool (TradingPair.new a b))
          (inPairOrder (TradingPair.new a b) a x y)).1 s s' := by
  obtain ⟨p, lp, increment, l₁, l₂, l₃, w, rfl, hlp, rfl, -, h0, h1, -, -, rfl⟩ :=
    doAddLiquidity_spec h
  exact ⟨lp, hlp, ⟨l₁, l₂, h0, h1⟩, get_insert ..⟩

/-- **Adding liquidity respects the maxima exactly if** no share has been issued yet, the offered
price is above the pool's, or the first maximum covers the second one. -/
theorem add_liquidity_within_iff {a b : CurrencyId} {x y m : ℕ} {d : Bool} {u : Unit}
    (hx : x ≤ Balance.maxValue) (hy : y ≤ Balance.maxValue)
    (h : (doAddLiquidity cfg who a b x y m d).run s = .ok u s') :
    let p := TradingPair.new a b
    let maxAmount := inPairOrder p a x y
    ∃ lp amount, p.getDexShareCurrencyId = some lp ∧ TakesIn cfg who p amount s s' ∧
      (Within maxAmount amount ↔ s.ledger.issuance lp = 0 ∨
        OffersMore (s.pool p) maxAmount ∨ Covers (s.pool p) maxAmount) := by
  intro p maxAmount
  obtain ⟨lp, hlp, htakes⟩ := doAddLiquidity_takes h
  have hmax : maxAmount.1 ≤ Balance.maxValue ∧ maxAmount.2 ≤ Balance.maxValue := by
    show (inPairOrder p a x y).1 ≤ _ ∧ (inPairOrder p a x y).2 ≤ _
    unfold inPairOrder
    split
    · exact ⟨hx, hy⟩
    · exact ⟨hy, hx⟩
  exact ⟨lp, _, hlp, htakes, liquidityIncrement_within_iff hmax.1 hmax.2⟩

end Calls

/-- A pool of a hundred whole units on both sides. -/
def evenState : State ℕ Unit := pooledState (10 ^ 20, 10 ^ 20) (10 ^ 22) (by decide)

/-- Account 1 offers 300 to 200. -/
def evenCall : DexM ℕ Unit Unit :=
  doAddLiquidity sampleConfig 1 (.Token .DNAR) (.Token .USDJ) 300 200 0 false

theorem add_liquidity_evenCall :
    ∃ lp amount, samplePair.getDexShareCurrencyId = some lp ∧
      TakesIn sampleConfig 1 samplePair amount evenState (commit evenCall evenState) ∧
      (Within (300, 200) amount ↔ evenState.ledger.issuance lp = 0 ∨
        OffersMore (evenState.pool samplePair) (300, 200) ∨
        Covers (evenState.pool samplePair) (300, 200)) :=
  have hrun : evenCall.run evenState = .ok () (commit evenCall evenState) := rfl
  add_liquidity_within_iff (by decide) (by decide) hrun

/-- **A caller who allows one unit of a currency is charged `10 ^ 21`.** The price of `10 ^ 21` to
one has no representation. -/
theorem add_liquidity_exceeds_maximum :
    let call := doAddLiquidity sampleConfig 1 (.Token .DNAR) (.Token .USDJ) 1 (10 ^ 21) 0 false
    samplePair.currency0 = .Token .DNAR ∧ succeeds call evenState = true ∧
      ((commit call evenState).ledger.free (.Token .DNAR) 1 + 10 ^ 21
        = evenState.ledger.free (.Token .DNAR) 1) := by
  decide +kernel

end Setheum.Dex
