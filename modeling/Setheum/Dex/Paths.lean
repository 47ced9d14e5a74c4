import Setheum.Dex.Reserves

/-!
# Swaps along a path

A swap quotes every hop of its path against the pools as they stand before the first hop, and then
moves the amounts through the pools hop by hop. `HopsCovered` says that every hop is covered by
the pool as the hops before it leave it, which the quote does not ensure when a path drains one
pool twice.

* `InFlight.swap` — a covered hop hands what it was given on to the next hop.
* `InFlight.swapByPath` — so does a path of covered hops.
* `getTargetAmounts_spec`, `getSupplyAmounts_spec` — a quote has one amount for each currency of
  the path, and every hop of it is enabled.
-/

set_option autoImplicit false

namespace Setheum.Dex

open StorageMap

variable {A E : Type}

/-- Every hop takes no more than the pool holds when the hop is reached. -/
def HopsCovered : State A E → List CurrencyId → List ℕ → Prop
  | s, c :: c' :: path, n :: n' :: amounts =>
      n' ≤ (getLiquidity s c c').2 ∧
        HopsCovered (swap c c' n n' s) (c' :: path) (n' :: amounts)
  | _, _, _ => True

/-- Every two neighbours of the path make an enabled pair. -/
def EnabledPath (statuses : Map TradingPair TradingPairStatus) : List CurrencyId → Prop
  | c :: c' :: path =>
      get .NotEnabled statuses (TradingPair.new c c') = .Enabled ∧
        EnabledPath statuses (c' :: path)
  | _ => True

/-! ## Quotes -/

/-- What a quote along a path provides. -/
structure Quote (s : State A E) (path : List CurrencyId) (amounts : List ℕ) : Prop where
  length_eq : amounts.length = path.length
  enabled : EnabledPath s.tradingPairStatuses path

/-- What the first hop of an exact-supply quote checks, and what is quoted for the rest. -/
theorem targetAmountsFrom_cons_ok {s : State A E} {limit : Option ℕ} {c c' : CurrencyId}
    {path : List CurrencyId} {amount : ℕ} {amounts : List ℕ} :
    let pool := getLiquidity s c c'
    let target := getTargetAmount s.exchangeFee pool.1 pool.2 amount
    targetAmountsFrom s limit (c :: c' :: path) amount = .ok amounts ↔
      s.tradingPairStatus (TradingPair.new c c') = .Enabled ∧ ¬ (pool.1 = 0 ∨ pool.2 = 0) ∧
        target ≠ 0 ∧ exceedsImpact limit target pool.2 = false ∧
        ∃ rest, targetAmountsFrom s limit (c' :: path) target = .ok rest ∧
          amounts = amount :: rest := by
  intro pool target
  constructor
  · intro h
    simp only [targetAmountsFrom] at h
    split at h
    · cases h
    · rename_i henabled
      split at h
      · cases h
      · rename_i hpool
        split at h
        · cases h
        · rename_i htarget
          split at h
          · cases h
          · rename_i himpact
            split at h
            · rename_i rest hrest
              cases h
              exact ⟨not_not.mp henabled, hpool, htarget, Bool.eq_false_iff.mpr himpact, rest,
                hrest, rfl⟩
            · cases h
  · rintro ⟨henabled, hpool, htarget, himpact, rest, hrest, rfl⟩
    rw [targetAmountsFrom, if_neg (not_not.mpr henabled)]
    dsimp only
    rw [if_neg hpool, if_neg htarget, if_neg (Bool.eq_false_iff.mp himpact), hrest]

/-- What is quoted for the rest, and what the first hop of an exact-target quote then checks. -/
theorem supplyAmountsTo_cons_ok {s : State A E} {limit : Option ℕ} {c c' : CurrencyId}
    {path : List CurrencyId} {amount : ℕ} {amounts : List ℕ}
    (h : supplyAmountsTo s limit (c :: c' :: path) amount = .ok amounts) :
    let pool := getLiquidity s c c'
    ∃ rest, supplyAmountsTo s limit (c' :: path) amount = .ok rest ∧
      s.tradingPairStatus (TradingPair.new c c') = .Enabled ∧ ¬ (pool.1 = 0 ∨ pool.2 = 0) ∧
      exceedsImpact limit (rest.headD 0) pool.2 = false ∧
      ∃ supply, supply = getSupplyAmount s.exchangeFee pool.1 pool.2 (rest.headD 0) ∧
        supply ≠ 0 ∧ amounts = supply :: rest := by
  intro pool
  simp only [supplyAmountsTo] at h
  split at h
  · cases h
  · rename_i rest hrest
    split at h
    · cases h
    · rename_i henabled
      split at h
      · cases h
      · rename_i hpool
        split at h
        · cases h
        · rename_i hsupply
          split at h
          · cases h
          · rename_i himpact
            cases h
            exact ⟨rest, hrest, not_not.mp henabled, hpool, Bool.eq_false_iff.mpr himpact, _, rfl,
              hsupply, rfl⟩

theorem targetAmountsFrom_spec {s : State A E} {limit : Option ℕ} :
    ∀ {path : List CurrencyId} {amount : ℕ} {amounts : List ℕ}, path ≠ [] →
      targetAmountsFrom s limit path amount = .ok amounts →
      Quote s path amounts ∧ amounts.head? = some amount
  | [c], amount, amounts, _, h => by
      simp only [targetAmountsFrom] at h
      cases h
      exact ⟨⟨rfl, trivial⟩, rfl⟩
  | c :: c' :: path, amount, amounts, _, h => by
      obtain ⟨henabled, -, -, -, rest, hrest, rfl⟩ := targetAmountsFrom_cons_ok.mp h
      obtain ⟨hq, -⟩ := targetAmountsFrom_spec (List.cons_ne_nil c' path) hrest
      refine ⟨⟨?_, henabled, hq.enabled⟩, rfl⟩
      simpa using hq.length_eq

theorem getTargetAmounts_spec {s : State A E} {pathLimit : ℕ} {limit : Option ℕ}
    {path : List CurrencyId} {amount : ℕ} {amounts : List ℕ}
    (h : getTargetAmounts pathLimit s path amount limit = .ok amounts) :
    Quote s path amounts ∧ amounts.head? = some amount := by
  unfold getTargetAmounts at h
  split at h
  · cases h
  · refine targetAmountsFrom_spec ?_ h
    rintro rfl
    simp at *

theorem supplyAmountsTo_spec {s : State A E} {limit : Option ℕ} :
    ∀ {path : List CurrencyId} {amount : ℕ} {amounts : List ℕ}, path ≠ [] →
      supplyAmountsTo s limit path amount = .ok amounts →
      Quote s path amounts ∧ amounts.getLast? = some amount
  | [c], amount, amounts, _, h => by
      simp only [supplyAmountsTo] at h
      cases h
      exact ⟨⟨rfl, trivial⟩, rfl⟩
  | c :: c' :: path, amount, amounts, _, h => by
      obtain ⟨rest, hrest, henabled, -, -, supply, -, -, rfl⟩ := supplyAmountsTo_cons_ok h
      obtain ⟨hq, hlast⟩ := supplyAmountsTo_spec (List.cons_ne_nil c' path) hrest
      refine ⟨⟨?_, henabled, hq.enabled⟩, ?_⟩
      · simpa using hq.length_eq
      · rw [List.getLast?_cons, hlast]
        rfl

theorem getSupplyAmounts_spec {s : State A E} {pathLimit : ℕ} {limit : Option ℕ}
    {path : List CurrencyId} {amount : ℕ} {amounts : List ℕ}
    (h : getSupplyAmounts pathLimit s path amount limit = .ok amounts) :
    Quote s path amounts ∧ amounts.getLast? = some amount := by
  unfold getSupplyAmounts at h
  split at h
  · cases h
  · refine supplyAmountsTo_spec ?_ h
    rintro rfl
    simp at *

/-! ## Hops -/

/-- A swap changes nothing but the pools. -/
theorem swap_eq (c c' : CurrencyId) (n n' : ℕ) (s : State A E) :
    ∃ m, swap c c' n n' s = { s with liquidityPool := m } := by
  unfold swap
  split
  · exact ⟨s.liquidityPool, rfl⟩
  · exact ⟨_, rfl⟩

theorem swapByPath_eq : ∀ (path : List CurrencyId) (amounts : List ℕ) (s : State A E),
    ∃ m, swapByPath path amounts s = { s with liquidityPool := m }
  | [], _, s => ⟨s.liquidityPool, by simp [swapByPath]⟩
  | [_], _, s => ⟨s.liquidityPool, by simp [swapByPath]⟩
  | _ :: _ :: _, [], s => ⟨s.liquidityPool, by simp [swapByPath]⟩
  | _ :: _ :: _, [_], s => ⟨s.liquidityPool, by simp [swapByPath]⟩
  | c :: c' :: path, n :: n' :: amounts, s => by
      obtain ⟨m, hm⟩ := swap_eq c c' n n' s
      obtain ⟨m', hm'⟩ := swapByPath_eq (c' :: path) (n' :: amounts) (swap c c' n n' s)
      refine ⟨m', ?_⟩
      rw [swapByPath, hm', hm]

section Flight

variable (cfg : Config A E)

/-- The account holds what the pools and provisions add up to, and `n` of currency `c` that has
come in but is in no pool yet. -/
def InFlight (s : State A E) (c : CurrencyId) (n : ℕ) : Prop :=
  ∀ d, s.ledger.free d cfg.accountId
    = poolTotal s d + provisionTotal s d + (if d = c then n else 0)

variable {cfg} {s : State A E} {c c' : CurrencyId} {n n' : ℕ}

/-- What a hop changes in the pool totals, when the pool covers it. -/
theorem InFlight.insert_pool (h : InFlight cfg s c n) {p : TradingPair} {y : ℕ × ℕ}
    (hside : ∀ d, side d p y + (if d = c' then n' else 0)
      = side d p (s.pool p) + (if d = c then n else 0)) :
    InFlight cfg { s with liquidityPool := s.liquidityPool.insert p y } c' n' := by
  intro d
  have hins := sumBy_insert_add (side d) s.liquidityPool p y
  rw [weightAt_eq_get (side d) s.liquidityPool p (side_zero d p)] at hins
  have hd := h d
  have hs := hside d
  simp only [poolTotal, provisionTotal, State.pool] at hd hs hins ⊢
  omega

/-- The supply of a hop fits into its pool. -/
theorem InFlight.pool_add_le (h : InFlight cfg s c n) (p : TradingPair) :
    side c p (s.pool p) + n ≤ Balance.maxValue := by
  have hone := weightAt_le_sumBy (side c) s.liquidityPool p
  rw [weightAt_eq_get (side c) s.liquidityPool p (side_zero c p)] at hone
  have hmax := s.ledger.free_le c cfg.accountId
  have hc := h c
  simp only [if_true, poolTotal, State.pool] at hc hone ⊢
  omega

/-- **A covered hop hands what it was given on to the next hop.** -/
theorem InFlight.swap (h : InFlight cfg s c n) (hvalid : (TradingPair.new c c').Valid)
    (hcov : n' ≤ (getLiquidity s c c').2) :
    InFlight cfg (Dex.swap c c' n n' s) c' n' := by
  have hfit := h.pool_add_le (TradingPair.new c c')
  have hsides := TradingPair.sides_new c c'
  unfold Dex.swap
  rw [TradingPair.fromTokenCurrencyIds_of_valid hvalid]
  unfold getLiquidity at hcov
  generalize TradingPair.new c c' = p at *
  by_cases hc : c = p.currency0
  · -- the supply is the first side, the target the second
    have hc' : c' = p.currency1 := by
      rcases hsides with ⟨-, h1⟩ | ⟨h0, h1⟩
      · exact h1.symm
      · rw [h1, hc, h0]
    simp only [if_pos hc] at hcov ⊢
    refine h.insert_pool fun d => ?_
    have hsat : (s.pool p).1 + n ≤ Balance.maxValue := by
      have hfst := fst_le_side p (s.pool p)
      rw [← hc] at hfst
      omega
    rw [Balance.saturatingAdd_eq hsat]
    simp only [side, ← hc, ← hc']
    split <;> split <;> omega
  · -- the other way round
    have hc0 : c' = p.currency0 ∧ c = p.currency1 := by
      rcases hsides with ⟨h0, -⟩ | ⟨h0, h1⟩
      · exact absurd h0.symm hc
      · exact ⟨h0.symm, h1.symm⟩
    simp only [if_neg hc] at hcov ⊢
    refine h.insert_pool fun d => ?_
    have hsat : (s.pool p).2 + n ≤ Balance.maxValue := by
      have hsnd := snd_le_side p (s.pool p)
      rw [← hc0.2] at hsnd
      omega
    rw [Balance.saturatingAdd_eq hsat]
    simp only [side, ← hc0.1, ← hc0.2]
    split <;> split <;> omega

/-- **A path of covered hops moves the supply at its head to the target at its end.** -/
theorem InFlight.swapByPath {path : List CurrencyId} {amounts : List ℕ}
    (h : InFlight cfg s c n) (hvalid : ∀ p, s.tradingPairStatus p = .Enabled → p.Valid)
    (hc : path.head? = some c) (hn : amounts.head? = some n)
    (hlen : amounts.length = path.length) (henabled : EnabledPath s.tradingPairStatuses path)
    (hcov : HopsCovered s path amounts) (hc' : path.getLast? = some c')
    (hn' : amounts.getLast? = some n') :
    InFlight cfg (Dex.swapByPath path amounts s) c' n' := by
  induction path generalizing c n amounts s with
  | nil => cases hc
  | cons d path ih =>
      cases hc
      rcases path with _ | ⟨d', path⟩
      · obtain ⟨m, rfl⟩ := List.length_eq_one_iff.mp hlen
        cases hn
        cases hc'
        cases hn'
        exact h
      · rcases amounts with _ | ⟨m, _ | ⟨m', amounts⟩⟩
        · cases hn
        · simp at hlen
        · cases hn
          obtain ⟨hen, henabled'⟩ := henabled
          obtain ⟨hcovh, hcov'⟩ := hcov
          have hhop := h.swap (hvalid _ hen) hcovh
          obtain ⟨pools, hpools⟩ := swap_eq d d' n m' s
          rw [List.getLast?_cons_cons] at hc' hn'
          refine ih hhop ?_ rfl rfl ?_ ?_ hcov' hc' hn'
          · rw [hpools]
            exact hvalid
          · simpa using hlen
          · rw [hpools]
            exact henabled'

end Flight

end Setheum.Dex
