import Setheum.Dex.Accounting
import Setheum.Lib.ConstantProduct

/-!
# The value of a liquidity share

For a pool with sides `x` and `y` and `t` issued shares, `x * y / t ^ 2` should not fall while
liquidity is added and removed and the pool is traded on. Rounding in the module favours the pool,
with three exceptions that `KeepsValue` rules out: the numerator of an exact-target quote is cut
off at 256 bits, fixed-point products above 128 bits are rounded to the nearest integer, and a path
that passes a pool twice in one direction is quoted as if it passed it once.

* `getTargetAmount_fair`, `getSupplyAmount_fair` — a quoted hop is fair to its pool.
* `Progress.swapByPath` — so is a path that passes the pool at most once in either direction.
* `step_shareValue` — a call that meets the condition keeps the value of a share.
* `shareValue_of_run` — so does a run of such calls.
-/

set_option autoImplicit false

namespace Setheum.Dex

open StorageMap Dispatch ConstantProduct

/-! ## Quoted hops -/

section Quotes

variable {fee : ℕ × ℕ} {x y n n' : ℕ}

theorem fair_zero_target (x y n : ℕ) : Fair x y n 0 :=
  ⟨Nat.zero_le y, Nat.mul_le_mul_right y (Nat.le_add_right x n)⟩

/-- **A quoted target is fair**, for every supply. -/
theorem getTargetAmount_fair (hu32 : fee.2 < 2 ^ 32) (hx : x ≤ Balance.maxValue) (y n : ℕ) :
    Fair x y n (getTargetAmount fee x y n) := by
  unfold getTargetAmount
  split
  · exact fair_zero_target x y n
  · rename_i hnonzero
    generalize ha : Balance.saturatingMul n (fee.2 - fee.1) = a
    have hmax : a ≤ Balance.maxValue := ha ▸ min_le_right _ _
    have hsupply : a ≤ n * fee.2 := by
      rw [← ha]
      exact (min_le_left _ _).trans (Nat.mul_le_mul_left n (Nat.sub_le _ _))
    -- no denominator comes near the bound of 256 bits
    have hden : x * fee.2 + a ≤ u256Max := by
      have hprod : x * fee.2 ≤ Balance.maxValue * 2 ^ 32 := Nat.mul_le_mul hx hu32.le
      unfold Balance.maxValue at hprod hmax
      unfold u256Max
      omega
    have hmin : min (min (x * fee.2) u256Max + a) u256Max = x * fee.2 + a := by omega
    simp only [hmin]
    split
    · exact fair_zero_target x y n
    · rename_i hpos
      split
      · refine fair_of_floor (d := fee.2) (Nat.pos_of_ne_zero hpos) hsupply ?_
        exact (Nat.div_mul_le_self _ _).trans (min_le_left _ _)
      · exact fair_zero_target x y n

/-- **A quoted supply is fair**, if the numerator of the quote fits 256 bits. -/
theorem getSupplyAmount_fair (hfee : fee.1 < fee.2) (hfit : x * n' * fee.2 ≤ u256Max)
    (hnonzero : getSupplyAmount fee x y n' ≠ 0) : Fair x y (getSupplyAmount fee x y n') n' := by
  unfold getSupplyAmount at hnonzero ⊢
  split
  · rename_i hzero
    rw [if_pos hzero] at hnonzero
    exact absurd rfl hnonzero
  · rename_i hquoted
    rw [if_neg hquoted] at hnonzero
    have hd : 0 < fee.2 := by omega
    have hnum : min (min (x * n') u256Max * fee.2) u256Max = x * n' * fee.2 := by
      have hle : x * n' ≤ x * n' * fee.2 := Nat.le_mul_of_pos_right _ hd
      rw [Nat.min_eq_left (hle.trans hfit), Nat.min_eq_left hfit]
    simp only [hnum] at hnonzero ⊢
    generalize hden : min ((y - n') * (fee.2 - fee.1)) u256Max = den at hnonzero ⊢
    have hle : den ≤ (y - n') * fee.2 := by
      rw [← hden]
      exact (min_le_left _ _).trans (Nat.mul_le_mul_left _ (Nat.sub_le _ _))
    split
    · rename_i hzero
      rw [if_pos hzero] at hnonzero
      exact absurd rfl hnonzero
    · rename_i hpos
      rw [if_neg hpos] at hnonzero
      split
      · have htarget : n' ≤ y := by
          by_contra hlt
          have hsub : y - n' = 0 := by omega
          rw [hsub, Nat.zero_mul] at hle
          omega
        refine fair_of_ceil htarget ?_
        have hceil : x * n' * fee.2 < (x * n' * fee.2 / den + 1) * den := by
          rw [Nat.mul_comm _ den]
          exact Nat.lt_mul_div_succ _ (Nat.pos_of_ne_zero hpos)
        have hbound := Nat.mul_le_mul_left (x * n' * fee.2 / den + 1) hle
        rw [← Nat.mul_assoc] at hbound
        exact Nat.le_of_mul_le_mul_right (hceil.le.trans hbound) hd
      · rename_i hbig
        rw [if_neg hbig] at hnonzero
        exact absurd rfl hnonzero

end Quotes

/-! ## Paths -/

section Paths

variable {A E : Type} {s s₀ : State A E} {p : TradingPair}

/-- Every hop of the path, with its two amounts, meets the condition. -/
def HopsMeet (ok : CurrencyId → CurrencyId → ℕ → ℕ → Prop) : List CurrencyId → List ℕ → Prop
  | c :: c' :: path, n :: n' :: amounts => ok c c' n n' ∧ HopsMeet ok (c' :: path) (n' :: amounts)
  | _, _ => True

/-- The hops of the path that pass the pool of a pair. -/
def hopsOn (p : TradingPair) : List CurrencyId → List (CurrencyId × CurrencyId)
  | c :: c' :: path =>
      if TradingPair.new c c' = p then (c, c') :: hopsOn p (c' :: path)
      else hopsOn p (c' :: path)
  | _ => []

theorem HopsMeet.imp₂ {ok₁ ok₂ ok₃ : CurrencyId → CurrencyId → ℕ → ℕ → Prop}
    (himp : ∀ c c' n n', ok₁ c c' n n' → ok₂ c c' n n' → ok₃ c c' n n') :
    ∀ {path : List CurrencyId} {amounts : List ℕ}, HopsMeet ok₁ path amounts →
      HopsMeet ok₂ path amounts → HopsMeet ok₃ path amounts
  | [], _, _, _ => by simp [HopsMeet]
  | [_], _, _, _ => by simp [HopsMeet]
  | _ :: _ :: _, [], _, _ => by simp [HopsMeet]
  | _ :: _ :: _, [_], _, _ => by simp [HopsMeet]
  | _ :: _ :: _, _ :: _ :: _, h₁, h₂ =>
      ⟨himp _ _ _ _ h₁.1 h₂.1, HopsMeet.imp₂ himp h₁.2 h₂.2⟩

/-- Every hop of an exact-supply quote buys what its supply is quoted. -/
theorem targetAmountsFrom_hops {limit : Option ℕ} : ∀ {path : List CurrencyId} {amount : ℕ}
    {amounts : List ℕ}, path ≠ [] → targetAmountsFrom s limit path amount = .ok amounts →
      HopsMeet (fun c c' n n' => n' = getTargetAmount s.exchangeFee (getLiquidity s c c').1
        (getLiquidity s c c').2 n) path amounts
  | [c], amount, amounts, _, _ => by simp [HopsMeet]
  | c :: c' :: path, amount, amounts, _, h => by
      obtain ⟨-, -, -, -, rest, hrest, rfl⟩ := targetAmountsFrom_cons_ok.mp h
      have hhops := targetAmountsFrom_hops (List.cons_ne_nil c' path) hrest
      obtain ⟨-, hhead⟩ := targetAmountsFrom_spec (List.cons_ne_nil c' path) hrest
      cases rest with
      | nil => cases hhead
      | cons n rest =>
          cases hhead
          exact ⟨rfl, hhops⟩

/-- Every hop of an exact-target quote costs what its target is quoted, and not nothing. -/
theorem supplyAmountsTo_hops {limit : Option ℕ} : ∀ {path : List CurrencyId} {amount : ℕ}
    {amounts : List ℕ}, path ≠ [] → supplyAmountsTo s limit path amount = .ok amounts →
      HopsMeet (fun c c' n n' => n ≠ 0 ∧ n = getSupplyAmount s.exchangeFee (getLiquidity s c c').1
        (getLiquidity s c c').2 n') path amounts
  | [c], amount, amounts, _, _ => by simp [HopsMeet]
  | c :: c' :: path, amount, amounts, _, h => by
      obtain ⟨rest, hrest, -, -, -, supply, hsupply, hne, rfl⟩ := supplyAmountsTo_cons_ok h
      have hhops := supplyAmountsTo_hops (List.cons_ne_nil c' path) hrest
      obtain ⟨hq, -⟩ := supplyAmountsTo_spec (List.cons_ne_nil c' path) hrest
      cases rest with
      | nil =>
          have hlen := hq.length_eq
          simp at hlen
      | cons n rest => exact ⟨⟨hne, hsupply⟩, hhops⟩

theorem getTargetAmounts_hops {pathLimit : ℕ} {limit : Option ℕ} {path : List CurrencyId}
    {amount : ℕ} {amounts : List ℕ}
    (h : getTargetAmounts pathLimit s path amount limit = .ok amounts) :
    HopsMeet (fun c c' n n' => n' = getTargetAmount s.exchangeFee (getLiquidity s c c').1
      (getLiquidity s c c').2 n) path amounts := by
  unfold getTargetAmounts at h
  split at h
  · cases h
  · refine targetAmountsFrom_hops ?_ h
    rintro rfl
    simp at *

theorem getSupplyAmounts_hops {pathLimit : ℕ} {limit : Option ℕ} {path : List CurrencyId}
    {amount : ℕ} {amounts : List ℕ}
    (h : getSupplyAmounts pathLimit s path amount limit = .ok amounts) :
    HopsMeet (fun c c' n n' => n ≠ 0 ∧ n = getSupplyAmount s.exchangeFee (getLiquidity s c c').1
      (getLiquidity s c c').2 n') path amounts := by
  unfold getSupplyAmounts at h
  split at h
  · cases h
  · refine supplyAmountsTo_hops ?_ h
    rintro rfl
    simp at *

/-- The pool of the pair, with sides `x` and `y` when the path began: one fair trade may have
passed it in either direction, and no hop that is left repeats one of them. -/
def Progress (p : TradingPair) (x y : ℕ) (rest : List (CurrencyId × CurrencyId))
    (pool : ℕ × ℕ) : Prop :=
  ∃ a b c e, pool = (x + a - e, y - b + c) ∧ Fair x y a b ∧ Fair y x c e ∧
    x + a ≤ Balance.maxValue ∧ y + c ≤ Balance.maxValue ∧
    (a = 0 ∧ b = 0 ∨ (p.currency0, p.currency1) ∉ rest) ∧
    (c = 0 ∧ e = 0 ∨ (p.currency1, p.currency0) ∉ rest)

theorem Progress.begin {x y : ℕ} (hx : x ≤ Balance.maxValue) (hy : y ≤ Balance.maxValue)
    (rest : List (CurrencyId × CurrencyId)) : Progress p x y rest (x, y) :=
  ⟨0, 0, 0, 0, rfl, fair_zero x y, fair_zero y x, hx, hy, .inl ⟨rfl, rfl⟩, .inl ⟨rfl, rfl⟩⟩

/-- At the end of a path the product has not fallen and the sides still fit. -/
theorem Progress.product {x y : ℕ} {rest : List (CurrencyId × CurrencyId)} {pool : ℕ × ℕ}
    (h : Progress p x y rest pool) :
    x * y ≤ pool.1 * pool.2 ∧ pool.1 ≤ Balance.maxValue ∧ pool.2 ≤ Balance.maxValue := by
  obtain ⟨a, b, c, e, rfl, hfwd, hbwd, hx, hy, -, -⟩ := h
  refine ⟨fair_both_ways hfwd hbwd, (Nat.sub_le _ _).trans hx, ?_⟩
  exact (Nat.add_le_add_right (Nat.sub_le y b) c).trans hy

theorem Progress.skip {x y : ℕ} {hop : CurrencyId × CurrencyId}
    {rest : List (CurrencyId × CurrencyId)} {pool : ℕ × ℕ}
    (h : Progress p x y (hop :: rest) pool) : Progress p x y rest pool := by
  obtain ⟨a, b, c, e, hpool, hfwd, hbwd, hx, hy, hfresh, hfresh'⟩ := h
  refine ⟨a, b, c, e, hpool, hfwd, hbwd, hx, hy, ?_, ?_⟩
  · exact hfresh.imp_right fun hnot hmem => hnot (List.mem_cons_of_mem _ hmem)
  · exact hfresh'.imp_right fun hnot hmem => hnot (List.mem_cons_of_mem _ hmem)

/-- What a hop does to the pool of its pair. -/
theorem swap_pool_self {c c' : CurrencyId} {q : TradingPair}
    (hq : TradingPair.fromTokenCurrencyIds c c' = some q) (n n' : ℕ) (s : State A E) :
    (swap c c' n n' s).pool q = if c = q.currency0 then
      (Balance.saturatingAdd (s.pool q).1 n, (s.pool q).2 - n')
    else ((s.pool q).1 - n', Balance.saturatingAdd (s.pool q).2 n) := by
  simp only [swap, hq, State.pool, get_insert]

theorem swap_pool_other {c c' : CurrencyId} (n n' : ℕ) (s : State A E)
    (hp : TradingPair.fromTokenCurrencyIds c c' ≠ some p) :
    (swap c c' n n' s).pool p = s.pool p := by
  unfold swap
  split
  · rfl
  · rename_i q hq
    have hne : p ≠ q := by
      rintro rfl
      exact hp hq
    simp only [State.pool, get_insert_ne _ _ _ hne]

/-- **A fair hop in a new direction keeps the progress of the pool.** -/
theorem Progress.hop {x y : ℕ} {c c' : CurrencyId} {n n' : ℕ}
    {rest : List (CurrencyId × CurrencyId)} {pool : ℕ × ℕ} (hp : TradingPair.new c c' = p)
    (hnodup : ((c, c') :: rest).Nodup) (h : Progress p x y ((c, c') :: rest) pool)
    (hfair : if c = p.currency0 then Fair x y n n' ∧ x + n ≤ Balance.maxValue
      else Fair y x n n' ∧ y + n ≤ Balance.maxValue) :
    Progress p x y rest (if c = p.currency0 then
      (Balance.saturatingAdd pool.1 n, pool.2 - n')
    else (pool.1 - n', Balance.saturatingAdd pool.2 n)) := by
  obtain ⟨a, b, d, e, rfl, hfwd, hbwd, hx, hy, hfresh, hfresh'⟩ := h
  have hnew : (c, c') ∉ rest := (List.nodup_cons.mp hnodup).1
  have hsides := TradingPair.sides_new c c'
  rw [hp] at hsides
  have hb := hfwd.1
  have he := hbwd.1
  by_cases hc : c = p.currency0
  · -- the supply is the first side
    rw [if_pos hc] at hfair ⊢
    obtain ⟨hfair, hfit⟩ := hfair
    have hc' : c' = p.currency1 := by
      rcases hsides with ⟨-, h1⟩ | ⟨h0, h1⟩
      · exact h1.symm
      · rw [h1, hc, h0]
    obtain ⟨rfl, rfl⟩ : a = 0 ∧ b = 0 := by
      refine hfresh.resolve_right fun hnot => hnot ?_
      rw [hc, hc']
      exact List.mem_cons_self
    have hn' := hfair.1
    refine ⟨n, n', d, e, ?_, hfair, hbwd, hfit, hy, .inr ?_, ?_⟩
    · rw [Balance.saturatingAdd_eq (by omega)]
      simp only [Prod.mk.injEq]
      omega
    · rw [← hc, ← hc']
      exact hnew
    · exact hfresh'.imp_right fun hnot hmem => hnot (List.mem_cons_of_mem _ hmem)
  · -- the other way round
    rw [if_neg hc] at hfair ⊢
    obtain ⟨hfair, hfit⟩ := hfair
    obtain ⟨hc', hc1⟩ : c' = p.currency0 ∧ c = p.currency1 := by
      rcases hsides with ⟨h0, -⟩ | ⟨h0, h1⟩
      · exact absurd h0.symm hc
      · exact ⟨h0.symm, h1.symm⟩
    obtain ⟨rfl, rfl⟩ : d = 0 ∧ e = 0 := by
      refine hfresh'.resolve_right fun hnot => hnot ?_
      rw [hc', hc1]
      exact List.mem_cons_self
    have hn' := hfair.1
    refine ⟨a, b, n, n', ?_, hfwd, hfair, hx, hfit, ?_, .inr ?_⟩
    · rw [Balance.saturatingAdd_eq (by omega)]
      simp only [Prod.mk.injEq]
      omega
    · exact hfresh.imp_right fun hnot hmem => hnot (List.mem_cons_of_mem _ hmem)
    · rw [← hc', ← hc1]
      exact hnew

/-- **A path of fair hops that passes the pool at most once in either direction.** -/
theorem Progress.swapByPath {path : List CurrencyId} {amounts : List ℕ}
    (hnodup : (hopsOn p path).Nodup)
    (h : Progress p (s₀.pool p).1 (s₀.pool p).2 (hopsOn p path) (s.pool p))
    (hfair : HopsMeet (fun c c' n n' => TradingPair.new c c' = p →
      Fair (getLiquidity s₀ c c').1 (getLiquidity s₀ c c').2 n n' ∧
        (getLiquidity s₀ c c').1 + n ≤ Balance.maxValue) path amounts) :
    ∃ rest, Progress p (s₀.pool p).1 (s₀.pool p).2 rest
      ((Dex.swapByPath path amounts s).pool p) := by
  induction path generalizing s amounts with
  | nil => exact ⟨_, by simpa [Dex.swapByPath] using h⟩
  | cons c path ih =>
      rcases path with _ | ⟨c', path⟩
      · exact ⟨_, by simpa [Dex.swapByPath] using h⟩
      · rcases amounts with _ | ⟨n, _ | ⟨n', amounts⟩⟩
        · exact ⟨_, by simpa [Dex.swapByPath] using h⟩
        · exact ⟨_, by simpa [Dex.swapByPath] using h⟩
        · obtain ⟨hhop, hrest⟩ := hfair
          rw [Dex.swapByPath]
          unfold hopsOn at h hnodup
          by_cases hp : TradingPair.new c c' = p
          · rw [if_pos hp] at h hnodup
            refine ih (List.nodup_cons.mp hnodup).2 ?_ hrest
            cases hq : TradingPair.fromTokenCurrencyIds c c' with
            | none =>
                rw [swap_pool_other n n' s (by rw [hq]; exact Option.some_ne_none p |>.symm)]
                exact h.skip
            | some q =>
                obtain rfl : q = p := (TradingPair.fromTokenCurrencyIds_eq_new hq).symm.trans hp
                rw [swap_pool_self hq]
                refine h.hop hp hnodup ?_
                have hfairHop := hhop hp
                unfold getLiquidity at hfairHop
                rw [hp] at hfairHop
                by_cases hc : c = q.currency0
                · rw [if_pos hc] at hfairHop ⊢
                  exact hfairHop
                · rw [if_neg hc] at hfairHop ⊢
                  exact hfairHop
          · rw [if_neg hp] at h hnodup
            refine ih hnodup ?_ hrest
            rw [swap_pool_other n n' s]
            · exact h
            · intro hq
              exact hp (TradingPair.fromTokenCurrencyIds_eq_new hq)

end Paths

/-! ## Shares -/

/-- The increments of both sides and of the shares are computed from parts that are rounded
down. -/
def IncrementRoundsDown (totalShares : ℕ) (pool maxAmount : ℕ × ℕ) : Prop :=
  if (FixedU128.checkedFromRational maxAmount.2 maxAmount.1).getD 0
      ≤ (FixedU128.checkedFromRational pool.2 pool.1).getD 0
  then FixedU128.PartRoundsDown pool.1 pool.2 maxAmount.2 ∧
    FixedU128.PartRoundsDown (liquidityIncrement totalShares pool maxAmount).1.1 pool.1 totalShares
  else FixedU128.PartRoundsDown pool.2 pool.1 maxAmount.1 ∧
    FixedU128.PartRoundsDown (liquidityIncrement totalShares pool maxAmount).1.2 pool.2 totalShares

instance (totalShares : ℕ) (pool maxAmount : ℕ × ℕ) :
    Decidable (IncrementRoundsDown totalShares pool maxAmount) :=
  inferInstanceAs (Decidable (if _ ≤ _ then _ ∧ _ else _ ∧ _))

/-- Shares for a part of one side are at most the same part of the other. -/
theorem share_le_of_part {x y n amount share t : ℕ}
    (hamount : FixedU128.PartRoundsDown x y n)
    (hx : FixedU128.saturatingMulInt ((FixedU128.checkedFromRational x y).getD 0) n = amount)
    (hpart : FixedU128.PartRoundsDown amount x t)
    (hshare : ((FixedU128.checkedFromRational amount x).bind
      fun r => FixedU128.checkedMulInt r t).getD 0 = share) (hnonzero : share ≠ 0) :
    share * x ≤ amount * t ∧ share * y ≤ n * t := by
  have hamount_le : amount * y ≤ x * n := by
    rw [← hx]
    exact FixedU128.saturatingMulInt_mul_le hamount
  obtain ⟨m, hm⟩ : ∃ m, ((FixedU128.checkedFromRational amount x).bind
      fun r => FixedU128.checkedMulInt r t) = some m := by
    refine Option.ne_none_iff_exists'.mp fun hnone => hnonzero ?_
    rw [← hshare, hnone, Option.getD_none]
  obtain rfl : m = share := by
    rw [← hshare, hm, Option.getD_some]
  obtain ⟨hpos, hle⟩ := FixedU128.checkedMulInt_mul_le hpart hm
  refine ⟨hle, Nat.le_of_mul_le_mul_right ?_ hpos⟩
  calc m * y * x = m * x * y := by ring
    _ ≤ amount * t * y := Nat.mul_le_mul_right y hle
    _ = amount * y * t := by ring
    _ ≤ x * n * t := Nat.mul_le_mul_right t hamount_le
    _ = n * t * x := by ring

/-- **New shares are at most their part of either side.** -/
theorem liquidityIncrement_fair {t : ℕ} {pool maxAmount : ℕ × ℕ} (ht : t ≠ 0)
    (hdown : IncrementRoundsDown t pool maxAmount)
    (hshare : (liquidityIncrement t pool maxAmount).2 ≠ 0) :
    (liquidityIncrement t pool maxAmount).2 * pool.1
        ≤ (liquidityIncrement t pool maxAmount).1.1 * t ∧
      (liquidityIncrement t pool maxAmount).2 * pool.2
        ≤ (liquidityIncrement t pool maxAmount).1.2 * t := by
  unfold IncrementRoundsDown at hdown
  unfold liquidityIncrement at hdown hshare ⊢
  simp only [if_neg ht] at hdown hshare ⊢
  by_cases hprice : (FixedU128.checkedFromRational maxAmount.2 maxAmount.1).getD 0
      ≤ (FixedU128.checkedFromRational pool.2 pool.1).getD 0
  · simp only [if_pos hprice] at hdown hshare ⊢
    exact share_le_of_part hdown.1 rfl hdown.2 rfl hshare
  · simp only [if_neg hprice] at hdown hshare ⊢
    exact (share_le_of_part hdown.1 rfl hdown.2 rfl hshare).symm

/-- Removed parts of the sides are at most the part of the shares. -/
theorem liquidityDecrement_fair {n t : ℕ} {pool : ℕ × ℕ}
    (h0 : FixedU128.PartRoundsDown n t pool.1) (h1 : FixedU128.PartRoundsDown n t pool.2) :
    (liquidityDecrement n t pool).1 * t ≤ n * pool.1 ∧
      (liquidityDecrement n t pool).2 * t ≤ n * pool.2 :=
  ⟨FixedU128.saturatingMulInt_mul_le h0, FixedU128.saturatingMulInt_mul_le h1⟩

/-! ## The value of a share -/

section Value

variable {A E : Type} {p : TradingPair} {lp : CurrencyId} {s s' s'' : State A E}

/-- The sides of the pair's pool fit the balance type. -/
def PoolFits (p : TradingPair) (s : State A E) : Prop :=
  (s.pool p).1 ≤ Balance.maxValue ∧ (s.pool p).2 ≤ Balance.maxValue

instance (p : TradingPair) (s : State A E) : Decidable (PoolFits p s) :=
  inferInstanceAs (Decidable (_ ∧ _))

/-- From `s` to `s'` the value of a share of the pair has not fallen. -/
structure ShareValueKept (p : TradingPair) (lp : CurrencyId) (s s' : State A E) : Prop where
  value : (s.pool p).1 * (s.pool p).2 * s'.ledger.issuance lp ^ 2
    ≤ (s'.pool p).1 * (s'.pool p).2 * s.ledger.issuance lp ^ 2
  issued : s'.ledger.issuance lp ≠ 0
  fits : PoolFits p s'
  fee : s'.exchangeFee = s.exchangeFee

theorem ShareValueKept.refl (hissued : s.ledger.issuance lp ≠ 0) (hfits : PoolFits p s) :
    ShareValueKept p lp s s := ⟨le_refl _, hissued, hfits, rfl⟩

/-- A trade that changes no issuance may raise the product. -/
theorem ShareValueKept.of_product (hissued : s.ledger.issuance lp ≠ 0)
    (hissuance : s'.ledger.issuance lp = s.ledger.issuance lp)
    (hprod : (s.pool p).1 * (s.pool p).2 ≤ (s'.pool p).1 * (s'.pool p).2) (hfits : PoolFits p s')
    (hfee : s'.exchangeFee = s.exchangeFee) : ShareValueKept p lp s s' := by
  refine ⟨?_, hissuance ▸ hissued, hfits, hfee⟩
  rw [hissuance]
  exact Nat.mul_le_mul_right _ hprod

/-- A pair whose pool and issuance are left alone keeps its value. -/
theorem ShareValueKept.of_eq (hissued : s.ledger.issuance lp ≠ 0) (hfits : PoolFits p s)
    (hissuance : s'.ledger.issuance lp = s.ledger.issuance lp) (hpool : s'.pool p = s.pool p)
    (hfee : s'.exchangeFee = s.exchangeFee) : ShareValueKept p lp s s' := by
  refine .of_product hissued hissuance (by rw [hpool]) ?_ hfee
  rw [PoolFits, hpool]
  exact hfits

/-- When each side grows by at least the part that the issuance grows by, or shrinks by at most
that part, the value does not fall. -/
theorem ShareValueKept.of_sides (hissued : s'.ledger.issuance lp ≠ 0)
    (h0 : (s.pool p).1 * s'.ledger.issuance lp ≤ (s'.pool p).1 * s.ledger.issuance lp)
    (h1 : (s.pool p).2 * s'.ledger.issuance lp ≤ (s'.pool p).2 * s.ledger.issuance lp)
    (hfits : PoolFits p s') (hfee : s'.exchangeFee = s.exchangeFee) :
    ShareValueKept p lp s s' := by
  refine ⟨?_, hissued, hfits, hfee⟩
  have hprod := Nat.mul_le_mul h0 h1
  calc (s.pool p).1 * (s.pool p).2 * s'.ledger.issuance lp ^ 2
      = (s.pool p).1 * s'.ledger.issuance lp * ((s.pool p).2 * s'.ledger.issuance lp) := by ring
    _ ≤ (s'.pool p).1 * s.ledger.issuance lp * ((s'.pool p).2 * s.ledger.issuance lp) := hprod
    _ = (s'.pool p).1 * (s'.pool p).2 * s.ledger.issuance lp ^ 2 := by ring

theorem ShareValueKept.trans (h : ShareValueKept p lp s s') (h' : ShareValueKept p lp s' s'') :
    ShareValueKept p lp s s'' := by
  refine ⟨?_, h'.issued, h'.fits, h'.fee.trans h.fee⟩
  have hpos : 0 < s'.ledger.issuance lp ^ 2 := Nat.pos_of_ne_zero (pow_ne_zero 2 h.issued)
  refine Nat.le_of_mul_le_mul_right ?_ hpos
  calc (s.pool p).1 * (s.pool p).2 * s''.ledger.issuance lp ^ 2 * s'.ledger.issuance lp ^ 2
      = (s.pool p).1 * (s.pool p).2 * s'.ledger.issuance lp ^ 2 * s''.ledger.issuance lp ^ 2 := by
        ring
    _ ≤ (s'.pool p).1 * (s'.pool p).2 * s.ledger.issuance lp ^ 2 * s''.ledger.issuance lp ^ 2 :=
        Nat.mul_le_mul_right _ h.value
    _ = (s'.pool p).1 * (s'.pool p).2 * s''.ledger.issuance lp ^ 2 * s.ledger.issuance lp ^ 2 := by
        ring
    _ ≤ (s''.pool p).1 * (s''.pool p).2 * s'.ledger.issuance lp ^ 2
          * s.ledger.issuance lp ^ 2 := Nat.mul_le_mul_right _ h'.value
    _ = (s''.pool p).1 * (s''.pool p).2 * s.ledger.issuance lp ^ 2
          * s'.ledger.issuance lp ^ 2 := by ring

end Value

/-! ## The calls -/

section Calls

variable {A E : Type} [DecidableEq A] {cfg : Config A E} {p : TradingPair} {lp : CurrencyId}
  {s s' : State A E} {who : A} {a b : CurrencyId} {path : List CurrencyId}

/-- Staking and unstaking shares neither mints nor burns. -/
structure StakingKeepsIssuance (cfg : Config A E) : Prop where
  deposit : ∀ who c n w w', cfg.incentives.doDepositDexShare who c n w = some w' →
    w'.1.issuance = w.1.issuance
  withdraw : ∀ who c n w w', cfg.incentives.doWithdrawDexShare who c n w = some w' →
    w'.1.issuance = w.1.issuance

/-- The increments of an addition of liquidity are rounded down and fit the pool. -/
def AddsFairly (p : TradingPair) (lp : CurrencyId) (maxAmount : ℕ × ℕ) (s : State A E) : Prop :=
  IncrementRoundsDown (s.ledger.issuance lp) (s.pool p) maxAmount ∧
    (s.pool p + (liquidityIncrement (s.ledger.issuance lp) (s.pool p) maxAmount).1).1
      ≤ Balance.maxValue ∧
    (s.pool p + (liquidityIncrement (s.ledger.issuance lp) (s.pool p) maxAmount).1).2
      ≤ Balance.maxValue

instance (p : TradingPair) (lp : CurrencyId) (maxAmount : ℕ × ℕ) (s : State A E) :
    Decidable (AddsFairly p lp maxAmount s) := inferInstanceAs (Decidable (_ ∧ _ ∧ _))

theorem doAddLiquidity_value (hstaking : StakingKeepsIssuance cfg)
    (hlp : p.getDexShareCurrencyId = some lp) (hissued : s.ledger.issuance lp ≠ 0)
    (hfits : PoolFits p s) {x y m : ℕ} {d : Bool} {u : Unit}
    (hok : TradingPair.new a b = p → AddsFairly p lp (inPairOrder p a x y) s)
    (hrun : (doAddLiquidity cfg who a b x y m d).run s = .ok u s') :
    ShareValueKept p lp s s' := by
  obtain ⟨q, lp', increment, l₁, l₂, l₃, w, rfl, hlp', rfl, hshare, h0, h1, h2, hstake, rfl⟩ :=
    doAddLiquidity_spec hrun
  set q := TradingPair.new a b
  set increment := liquidityIncrement (s.ledger.issuance lp') (s.pool q) (inPairOrder q a x y)
  have hmint : l₃.issuance lp = s.ledger.issuance lp + if lp = lp' then increment.2 else 0 := by
    rw [Ledger.deposit_issuance h2 lp, Ledger.transfer_issuance h1, Ledger.transfer_issuance h0]
  -- whether the shares are staked or not
  have hissuance :
      w.1.issuance lp = s.ledger.issuance lp + if lp = lp' then increment.2 else 0 := by
    rcases hstake with hw | rfl
    · rw [hstaking.deposit _ _ _ _ _ hw]
      exact hmint
    · exact hmint
  by_cases hq : q = p
  · obtain rfl : lp = lp' := by
      rw [hq, hlp] at hlp'
      exact Option.some.inj hlp'
    obtain ⟨hdown, hfit0, hfit1⟩ := hok hq
    rw [← hq] at hdown hfit0 hfit1 ⊢
    rw [if_pos rfl] at hissuance
    obtain ⟨hfair0, hfair1⟩ := liquidityIncrement_fair hissued hdown hshare
    have hpool : addPair (s.pool q) increment.1 = s.pool q + increment.1 := addPair_eq hfit0 hfit1
    have hnew : State.pool { s with
        ledger := w.1, external := w.2,
        liquidityPool := s.liquidityPool.insert q (addPair (s.pool q) increment.1) } q
        = s.pool q + increment.1 := by
      rw [State.pool, get_insert, hpool]
    refine .of_sides ?_ ?_ ?_ ?_ rfl
    · simp only [hissuance]
      omega
    · rw [hnew]
      simp only [hissuance, Prod.fst_add]
      linarith
    · rw [hnew]
      simp only [hissuance, Prod.snd_add]
      linarith
    · rw [PoolFits, hnew]
      exact ⟨hfit0, hfit1⟩
  · have hne : lp ≠ lp' := by
      rintro rfl
      exact hq (TradingPair.eq_of_getDexShareCurrencyId hlp' hlp)
    rw [if_neg hne, Nat.add_zero] at hissuance
    refine .of_eq hissued hfits hissuance ?_ rfl
    simp only [State.pool, get_insert_ne _ _ _ (Ne.symm hq)]

theorem doRemoveLiquidity_value (hstaking : StakingKeepsIssuance cfg)
    (hlp : p.getDexShareCurrencyId = some lp) (hissued : s.ledger.issuance lp ≠ 0)
    (hfits : PoolFits p s) {n x y : ℕ} {w : Bool} {u : Unit}
    (hok : TradingPair.new a b = p → n ≠ s.ledger.issuance lp ∧
      FixedU128.PartRoundsDown n (s.ledger.issuance lp) (s.pool p).1 ∧
      FixedU128.PartRoundsDown n (s.ledger.issuance lp) (s.pool p).2)
    (hrun : (doRemoveLiquidity cfg who a b n x y w).run s = .ok u s') :
    ShareValueKept p lp s s' := by
  obtain rfl | ⟨q, lp', decrement, v, l₁, l₂, l₃, hpair, hlp', rfl, hstake, hburn, h0, h1, rfl⟩ :=
    doRemoveLiquidity_spec hrun
  · exact .refl hissued hfits
  have hkept : v.1.issuance = s.ledger.issuance := by
    rcases hstake with hv | rfl
    · exact hstaking.withdraw _ _ _ _ _ hv
    · rfl
  have hissuance : l₃.issuance lp + (if lp = lp' then n else 0) = s.ledger.issuance lp := by
    have hsub := Ledger.withdraw_issuance hburn lp
    rw [hkept] at hsub
    rw [Ledger.transfer_issuance h1, Ledger.transfer_issuance h0]
    exact hsub
  by_cases hq : q = p
  · obtain rfl : lp = lp' := by
      rw [hq, hlp] at hlp'
      exact Option.some.inj hlp'
    obtain ⟨hleft, hdown0, hdown1⟩ := hok ((TradingPair.fromTokenCurrencyIds_eq_new hpair).trans hq)
    rw [← hq] at hdown0 hdown1 ⊢
    rw [if_pos rfl] at hissuance
    obtain ⟨hfair0, hfair1⟩ := liquidityDecrement_fair hdown0 hdown1
    set decrement := liquidityDecrement n (s.ledger.issuance lp) (s.pool q)
    have hnew : State.pool { s with
        ledger := l₃, external := v.2,
        liquidityPool := s.liquidityPool.insert q
          ((s.pool q).1 - decrement.1, (s.pool q).2 - decrement.2) } q
        = ((s.pool q).1 - decrement.1, (s.pool q).2 - decrement.2) := by
      rw [State.pool, get_insert]
    -- the sides keep at least the part of the shares that is left
    have hside : ∀ {x d : ℕ}, d * s.ledger.issuance lp ≤ n * x →
        x * l₃.issuance lp ≤ (x - d) * s.ledger.issuance lp := by
      intro x d hd
      rw [Nat.sub_mul]
      have htotal : x * s.ledger.issuance lp = x * l₃.issuance lp + n * x := by
        rw [← hissuance]
        ring
      omega
    refine .of_sides ?_ ?_ ?_ ?_ rfl
    · show l₃.issuance lp ≠ 0
      omega
    · rw [hnew]
      exact hside hfair0
    · rw [hnew]
      exact hside hfair1
    · rw [PoolFits, hnew]
      rw [← hq] at hfits
      exact ⟨(Nat.sub_le _ _).trans hfits.1, (Nat.sub_le _ _).trans hfits.2⟩
  · have hne : lp ≠ lp' := by
      rintro rfl
      exact hq (TradingPair.eq_of_getDexShareCurrencyId hlp' hlp)
    rw [if_neg hne, Nat.add_zero] at hissuance
    refine .of_eq hissued hfits hissuance ?_ rfl
    simp only [State.pool, get_insert_ne _ _ _ (Ne.symm hq)]

/-- **A settled swap along fair hops keeps the value of a share.** -/
theorem settleSwap_value (hissued : s.ledger.issuance lp ≠ 0) (hfits : PoolFits p s) {n m : ℕ}
    {amounts : List ℕ} {u : Unit} (hnodup : (hopsOn p path).Nodup)
    (hfair : HopsMeet (fun c c' n n' => TradingPair.new c c' = p →
      Fair (getLiquidity s c c').1 (getLiquidity s c c').2 n n' ∧
        (getLiquidity s c c').1 + n ≤ Balance.maxValue) path amounts)
    (hrun : (settleSwap cfg who path amounts n m).run s = .ok u s') :
    ShareValueKept p lp s s' := by
  obtain ⟨c, c', l₁, l₂, pools, -, hin, hout, hpools, rfl⟩ := settleSwap_spec hrun
  have hstart : Progress p (s.pool p).1 (s.pool p).2 (hopsOn p path)
      (State.pool { s with ledger := l₁ } p) := Progress.begin hfits.1 hfits.2 _
  obtain ⟨rest, hend⟩ := Progress.swapByPath hnodup hstart hfair
  rw [hpools] at hend
  obtain ⟨hprod, hfst, hsnd⟩ := hend.product
  refine .of_product hissued ?_ hprod ⟨hfst, hsnd⟩ rfl
  rw [Ledger.transfer_issuance hout, Ledger.transfer_issuance hin]

omit [DecidableEq A] in
/-- The side of the pool that a hop on the pair pays into fits the balance type. -/
theorem PoolFits.getLiquidity (h : PoolFits p s) {c c' : CurrencyId}
    (hp : TradingPair.new c c' = p) : (getLiquidity s c c').1 ≤ Balance.maxValue := by
  unfold Dex.getLiquidity
  rw [hp]
  by_cases hc : c = p.currency0
  · simp only [if_pos hc]
    exact h.1
  · simp only [if_neg hc]
    exact h.2

/-- What the hops on the pair add to its pool fits. -/
def SuppliesFit (p : TradingPair) (s : State A E) : List CurrencyId → List ℕ → Prop :=
  HopsMeet fun c c' n _ => TradingPair.new c c' = p →
    (getLiquidity s c c').1 + n ≤ Balance.maxValue

/-- The numerators that the supplies of the hops on the pair are computed from fit 256 bits. -/
def NumeratorsFit (p : TradingPair) (s : State A E) : List CurrencyId → List ℕ → Prop :=
  HopsMeet fun c c' _ n' => TradingPair.new c c' = p →
    (getLiquidity s c c').1 * n' * s.exchangeFee.2 ≤ u256Max

theorem doSwapWithExactSupply_value (hu32 : s.exchangeFee.2 < 2 ^ 32)
    (hissued : s.ledger.issuance lp ≠ 0) (hfits : PoolFits p s) {n m r : ℕ}
    (hok : ∀ amounts, getTargetAmounts cfg.tradingPathLimit s path n none = .ok amounts →
      (hopsOn p path).Nodup ∧ SuppliesFit p s path amounts)
    (hrun : (doSwapWithExactSupply cfg who path n m none).run s = .ok r s') :
    ShareValueKept p lp s s' := by
  obtain ⟨amounts, hquote, rfl, -, hsettle⟩ := doSwapWithExactSupply_ok_iff.mp hrun
  obtain ⟨hnodup, hsupplies⟩ := hok amounts hquote
  refine settleSwap_value hissued hfits hnodup ?_ hsettle
  have hhops := getTargetAmounts_hops hquote
  refine HopsMeet.imp₂ (fun c c' k k' hfit htarget hp => ?_) hsupplies hhops
  refine ⟨?_, hfit hp⟩
  rw [htarget]
  exact getTargetAmount_fair hu32 (hfits.getLiquidity hp) _ _

theorem doSwapWithExactTarget_value (hfee : s.exchangeFee.1 < s.exchangeFee.2)
    (hissued : s.ledger.issuance lp ≠ 0) (hfits : PoolFits p s) {n m r : ℕ}
    (hok : ∀ amounts, getSupplyAmounts cfg.tradingPathLimit s path n none = .ok amounts →
      (hopsOn p path).Nodup ∧ SuppliesFit p s path amounts ∧ NumeratorsFit p s path amounts)
    (hrun : (doSwapWithExactTarget cfg who path n m none).run s = .ok r s') :
    ShareValueKept p lp s s' := by
  obtain ⟨amounts, hquote, rfl, -, hsettle⟩ := doSwapWithExactTarget_ok_iff.mp hrun
  obtain ⟨hnodup, hsupplies, hnumerators⟩ := hok amounts hquote
  refine settleSwap_value hissued hfits hnodup ?_ hsettle
  have hhops := getSupplyAmounts_hops hquote
  have hquoted : HopsMeet (fun c c' n n' => TradingPair.new c c' = p →
      Fair (getLiquidity s c c').1 (getLiquidity s c c').2 n n') path amounts := by
    refine HopsMeet.imp₂ (fun c c' k k' hfit hsupply hp => ?_) hnumerators hhops
    obtain ⟨hnonzero, hsupply⟩ := hsupply
    rw [hsupply] at hnonzero ⊢
    exact getSupplyAmount_fair hfee (hfit hp) hnonzero
  exact HopsMeet.imp₂ (fun c c' k k' hfair hfit hp => ⟨hfair hp, hfit hp⟩) hquoted hsupplies

variable (cfg) in
/-- Enabling a provisioned pair leaves the pools and the issued shares of the others alone. -/
theorem convertToEnabledIfPossible_other {q : TradingPair} (hq : q ≠ p)
    (hlp : p.getDexShareCurrencyId = some lp) :
    (convertToEnabledIfPossible cfg q s).ledger.issuance lp = s.ledger.issuance lp ∧
      (convertToEnabledIfPossible cfg q s).pool p = s.pool p ∧
      (convertToEnabledIfPossible cfg q s).exchangeFee = s.exchangeFee := by
  unfold convertToEnabledIfPossible
  split
  · rename_i params lp' hst hlp'
    have hne : lp ≠ lp' := by
      rintro rfl
      exact hq (TradingPair.eq_of_getDexShareCurrencyId hlp' hlp)
    split
    · -- every contributor's shares are of the other pair
      have hmint : ∀ (entries : List (A × (ℕ × ℕ))) (t : State A E),
          (entries.foldl (issueShare cfg lp' params.accumulatedProvision) t).ledger.issuance lp
              = t.ledger.issuance lp ∧
            (entries.foldl (issueShare cfg lp' params.accumulatedProvision) t).exchangeFee
              = t.exchangeFee := by
        intro entries
        induction entries with
        | nil => exact fun t => ⟨rfl, rfl⟩
        | cons e entries ih =>
            intro t
            obtain ⟨hissuance, hfee⟩ := ih (issueShare cfg lp' params.accumulatedProvision t e)
            refine ⟨hissuance.trans ?_, hfee⟩
            simp only [issueShare]
            split
            · rename_i l hdeposit
              rw [Ledger.deposit_issuance hdeposit lp, if_neg hne, Nat.add_zero]
            · rfl
      obtain ⟨hissuance, hfee⟩ := hmint (s.provisionsOf q) s
      refine ⟨hissuance, ?_, hfee⟩
      simp only [State.pool, get_insert_ne _ _ _ (Ne.symm hq)]
    · exact ⟨rfl, rfl, rfl⟩
  · exact ⟨rfl, rfl, rfl⟩

theorem addLiquidity_value (hstaking : StakingKeepsIssuance cfg)
    (hlp : p.getDexShareCurrencyId = some lp) (hissued : s.ledger.issuance lp ≠ 0)
    (hfits : PoolFits p s) {origin : Origin (Signer cfg)} {x y m : ℕ} {d : Bool}
    (hok : TradingPair.new a b = p →
      (∀ params, s.tradingPairStatus p ≠ .Provisioning params) ∧
        AddsFairly p lp (inPairOrder p a x y) s) :
    ShareValueKept p lp s ((addLiquidity cfg origin a b x y m d).commit s) := by
  refine commit_transactional_invariant (.refl hissued hfits) ?_
  intro u s' hrun
  obtain ⟨who, rfl, hadd | ⟨params, t, hst, hadd, rfl⟩⟩ :=
    addLiquidity_spec (run_transactional_ok.mpr hrun)
  · exact doAddLiquidity_value hstaking hlp hissued hfits (fun hp => (hok hp).2) hadd
  · have hne : TradingPair.new a b ≠ p := by
      intro hp
      rw [hp] at hst
      exact (hok hp).1 params hst
    obtain ⟨params', l₁, l₂, r, -, -, h0, h1, -, rfl⟩ := doAddProvision_spec hadd
    obtain ⟨hissuance, hpool, hfee⟩ := convertToEnabledIfPossible_other cfg hne hlp
    refine .of_eq hissued hfits (hissuance.trans ?_) (hpool.trans rfl) (hfee.trans rfl)
    rw [Ledger.transfer_issuance h1, Ledger.transfer_issuance h0]

/-! ## Runs -/

/-- The call adds liquidity, removes it or swaps, and reaches none of the places where the module
rounds against the pool of the pair `p` or loses count of it. -/
def KeepsValue (cfg : Config A E) (p : TradingPair) (lp : CurrencyId) (s : State A E) :
    Call cfg → Prop
  | .addLiquidity _ a b x y _ _ => TradingPair.new a b = p →
      (∀ params, s.tradingPairStatus p ≠ .Provisioning params) ∧
        AddsFairly p lp (inPairOrder p a x y) s
  | .removeLiquidity _ a b n _ _ _ => TradingPair.new a b = p → n ≠ s.ledger.issuance lp ∧
      FixedU128.PartRoundsDown n (s.ledger.issuance lp) (s.pool p).1 ∧
      FixedU128.PartRoundsDown n (s.ledger.issuance lp) (s.pool p).2
  | .swapWithExactSupply _ path n _ =>
      ∀ amounts, getTargetAmounts cfg.tradingPathLimit s path n none = .ok amounts →
        (hopsOn p path).Nodup ∧ SuppliesFit p s path amounts
  | .swapWithExactTarget _ path n _ =>
      ∀ amounts, getSupplyAmounts cfg.tradingPathLimit s path n none = .ok amounts →
        (hopsOn p path).Nodup ∧ SuppliesFit p s path amounts ∧ NumeratorsFit p s path amounts
  | _ => False

/-- **A call that meets the condition keeps the value of a share.** -/
theorem step_shareValue (hstaking : StakingKeepsIssuance cfg)
    (hlp : p.getDexShareCurrencyId = some lp) (hfee : s.exchangeFee.1 < s.exchangeFee.2)
    (hu32 : s.exchangeFee.2 < 2 ^ 32) (hissued : s.ledger.issuance lp ≠ 0) (hfits : PoolFits p s)
    (call : Call cfg) (hok : KeepsValue cfg p lp s call) :
    ShareValueKept p lp s (step cfg s call) := by
  cases call with
  | addLiquidity origin a b x y m d => exact addLiquidity_value hstaking hlp hissued hfits hok
  | removeLiquidity origin a b n x y w =>
      refine commit_transactional_invariant (.refl hissued hfits) ?_
      intro u s' hrun
      obtain ⟨who, rfl, hremove⟩ := removeLiquidity_spec (run_transactional_ok.mpr hrun)
      exact doRemoveLiquidity_value hstaking hlp hissued hfits hok hremove
  | swapWithExactSupply origin path n m =>
      refine commit_transactional_invariant (.refl hissued hfits) ?_
      intro u s' hrun
      obtain ⟨who, rfl, r, hswap⟩ := swapWithExactSupply_spec (run_transactional_ok.mpr hrun)
      exact doSwapWithExactSupply_value hu32 hissued hfits hok hswap
  | swapWithExactTarget origin path n m =>
      refine commit_transactional_invariant (.refl hissued hfits) ?_
      intro u s' hrun
      obtain ⟨who, rfl, r, hswap⟩ := swapWithExactTarget_spec (run_transactional_ok.mpr hrun)
      exact doSwapWithExactTarget_value hfee hissued hfits hok hswap
  | listTradingPair _ _ _ _ _ _ _ _ => exact hok.elim
  | enableTradingPair _ _ _ => exact hok.elim
  | disableTradingPair _ _ _ => exact hok.elim
  | updateExchangeFee _ _ _ => exact hok.elim
  | outside _ => exact hok.elim

/-- **The value of a liquidity share never falls.** For a pair with issued shares, in every run of
additions, removals and swaps that meet the condition. -/
theorem shareValue_of_run (cfg : Config A E) (hstaking : StakingKeepsIssuance cfg)
    (p : TradingPair) (lp : CurrencyId) (hlp : p.getDexShareCurrencyId = some lp) (s : State A E)
    (hfee : s.exchangeFee.1 < s.exchangeFee.2) (hu32 : s.exchangeFee.2 < 2 ^ 32)
    (hissued : s.ledger.issuance lp ≠ 0) (hfits : PoolFits p s) (calls : List (Call cfg))
    (h : Machine.StepsMeet (step cfg) (KeepsValue cfg p lp) s calls) :
    (s.pool p).1 * (s.pool p).2 * (Machine.run (step cfg) s calls).ledger.issuance lp ^ 2
      ≤ ((Machine.run (step cfg) s calls).pool p).1 * ((Machine.run (step cfg) s calls).pool p).2
        * s.ledger.issuance lp ^ 2 := by
  have hrun : ShareValueKept p lp s (Machine.run (step cfg) s calls) := by
    refine Machine.run_invariant (P := ShareValueKept p lp s) (fun t call ht hcall => ?_)
      (.refl hissued hfits) h
    refine ht.trans (step_shareValue hstaking hlp ?_ ?_ ht.issued ht.fits call hcall)
    · rw [ht.fee]
      exact hfee
    · rw [ht.fee]
      exact hu32
  exact hrun.value

end Calls

/-! ## Two pools -/

/-- The pair of the samples. -/
def samplePair : TradingPair := TradingPair.new (.Token .DNAR) (.Token .USDJ)

def sampleShare : CurrencyId := .DexShare (.Token .DNAR) (.Token .USDJ)

/-- The pair is enabled with the given pool; account 1 holds `n` of every currency, the module
account the same, and `n` of every currency is issued to each of them. -/
def pooledState (pool : ℕ × ℕ) (n : ℕ) (hn : n + n ≤ Balance.maxValue) : State ℕ Unit where
  ledger :=
    { free := fun _ a => if a ≤ 1 then n else 0
      issuance := fun _ => n + n
      free_le := fun _ a => by split <;> omega
      issuance_le := fun _ => hn }
  system := References.provideAll
  blockNumber := 0
  liquidityPool := (∅ : Map TradingPair (ℕ × ℕ)).insert samplePair pool
  tradingPairStatuses := (∅ : Map TradingPair TradingPairStatus).insert samplePair .Enabled
  provisioningPool := ∅
  exchangeFee := (3, 1000)
  external := ()

theorem sampleConfig_staking : StakingKeepsIssuance sampleConfig where
  deposit := by
    rintro _ _ _ _ _ ⟨⟩
    rfl
  withdraw := by
    rintro _ _ _ _ _ ⟨⟩
    rfl

/-- Liquidity is added, the pool is traded on both ways, and liquidity is removed. -/
def valueRun : List (Call sampleConfig) :=
  [.addLiquidity (.signed sampleSigner) (.Token .USDJ) (.Token .DNAR) 70 60 0 false,
    .swapWithExactSupply (.signed sampleSigner) [.Token .DNAR, .Token .USDJ] 90 1,
    .swapWithExactTarget (.signed sampleSigner) [.Token .USDJ, .Token .DNAR] 40 500,
    .removeLiquidity (.signed sampleSigner) (.Token .DNAR) (.Token .USDJ) 33 1 1 false]

def smallState : State ℕ Unit := pooledState (300, 500) 1000 (by decide)

theorem valueRun_meets :
    Machine.StepsMeet (step sampleConfig) (KeepsValue sampleConfig samplePair sampleShare)
      smallState valueRun := by
  refine ⟨fun _ => ⟨?_, by decide +kernel⟩, ?_, ?_, fun _ => by decide +kernel, trivial⟩
  · intro params hst
    cases hst
  · intro amounts hquote
    cases hquote
    exact ⟨by decide +kernel, fun _ => by decide +kernel, trivial⟩
  · intro amounts hquote
    cases hquote
    exact ⟨by decide +kernel, ⟨fun _ => by decide +kernel, trivial⟩,
      fun _ => by decide +kernel, trivial⟩

theorem shareValue_valueRun :
    let t := Machine.run (step sampleConfig) smallState valueRun
    t.ledger.issuance sampleShare ≠ smallState.ledger.issuance sampleShare ∧
      (smallState.pool samplePair).1 * (smallState.pool samplePair).2
          * t.ledger.issuance sampleShare ^ 2
        ≤ (t.pool samplePair).1 * (t.pool samplePair).2
          * smallState.ledger.issuance sampleShare ^ 2 :=
  ⟨by decide +kernel, shareValue_of_run sampleConfig sampleConfig_staking samplePair sampleShare rfl
    smallState (by decide) (by decide) (by decide) (by decide) valueRun valueRun_meets⟩

/-- A pool with sides of `2 ^ 126` and `2 ^ 127 - 1`. -/
def largeState : State ℕ Unit := pooledState (2 ^ 126, 2 ^ 127 - 1) (2 ^ 127 - 1) (by decide)

/-- Half of the second side is bought. The numerator of its quote needs 262 bits and is cut off at
256, so that the price is about a sixtieth of the fair one. -/
def largePurchase : Call sampleConfig :=
  .swapWithExactTarget (.signed sampleSigner) [.Token .DNAR, .Token .USDJ] (2 ^ 126) (2 ^ 121)

/-- **Buying an exact target from a large pool can halve the value of a share.** -/
theorem shareValue_lost_on_exact_target :
    largeState.exchangeFee.1 < largeState.exchangeFee.2 ∧
      largeState.ledger.issuance sampleShare ≠ 0 ∧ PoolFits samplePair largeState ∧
      ¬ (largeState.pool samplePair).1 * (largeState.pool samplePair).2
          * (step sampleConfig largeState largePurchase).ledger.issuance sampleShare ^ 2
        ≤ ((step sampleConfig largeState largePurchase).pool samplePair).1
          * ((step sampleConfig largeState largePurchase).pool samplePair).2
          * largeState.ledger.issuance sampleShare ^ 2 := by
  refine ⟨by decide +kernel, by decide +kernel, by decide +kernel, by decide +kernel⟩

end Setheum.Dex
