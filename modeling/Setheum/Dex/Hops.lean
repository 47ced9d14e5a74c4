import Setheum.Dex.Accounting
import Setheum.Dex.Quotes
import Setheum.Dex.ShareValue

/-!
# A swap along a path and its hops

A swap quotes its whole path in advance and then moves the amounts through the pools. On a path
that uses no pair twice this is what one hop after the other does, each quoted on the pools that
the hop before it left.

* `hopsFrom_eq` — hops one after another are the quotes of the path, applied.
* `swap_ok_iff` — when a swap goes through, and what it leaves.
* `multi_hop` — a swap along a path and the swaps of its hops.
* `no_split_advantage` — a supply that is swapped in two parts is paid no more.
-/

set_option autoImplicit false

namespace Setheum.Dex

open Dispatch

variable {A E : Type} {s s' : State A E} {limit : Option ℕ} {path : List CurrencyId} {n m : ℕ}

/-! ## Hops one after another -/

/-- The pairs that a path trades on. -/
def pairsOf : List CurrencyId → List TradingPair
  | c :: c' :: path => TradingPair.new c c' :: pairsOf (c' :: path)
  | _ => []

/-- The payout and the pools of hops taken one after another. Each hop is quoted by itself, on the
pools that the one before it left. -/
def hopsFrom (limit : Option ℕ) : List CurrencyId → ℕ → State A E → Except Error (ℕ × State A E)
  | c :: c' :: path, n, s =>
      match targetAmountsFrom s limit [c, c'] n with
      | .ok amounts =>
          hopsFrom limit (c' :: path) (amounts.getLastD 0) (swapByPath [c, c'] amounts s)
      | .error e => .error e
  | _, n, s => .ok (n, s)

/-- What a single hop pays. -/
theorem targetAmountsFrom_pair {c c' : CurrencyId} {amounts : List ℕ}
    (h : targetAmountsFrom s limit [c, c'] n = .ok amounts) :
    ∃ y, amounts = [n, y] ∧
      y = getTargetAmount s.exchangeFee (getLiquidity s c c').1 (getLiquidity s c c').2 n := by
  obtain ⟨-, -, -, -, rest, hrest, rfl⟩ := targetAmountsFrom_cons_ok.mp h
  cases hrest
  exact ⟨_, rfl, rfl⟩

/-- The quote of a path is that of its first hop and, for what it pays, that of the rest. -/
theorem targetAmountsFrom_cons (s : State A E) (limit : Option ℕ) (c c' : CurrencyId)
    (path : List CurrencyId) (n : ℕ) :
    targetAmountsFrom s limit (c :: c' :: path) n =
      match targetAmountsFrom s limit [c, c'] n with
      | .ok amounts =>
          (targetAmountsFrom s limit (c' :: path) (amounts.getLastD 0)).map (n :: ·)
      | .error e => .error e := by
  simp only [targetAmountsFrom]
  split
  · rfl
  · split
    · rfl
    · split
      · rfl
      · split
        · rfl
        · simp only [List.getLastD_cons, List.getLastD_nil]
          split
          · rename_i hrest
            rw [hrest]
            rfl
          · rename_i hrest
            rw [hrest]
            rfl

/-- Quotes are a matter of the pools of the path, its pairs' statuses and the fee. -/
theorem targetAmountsFrom_congr (hstatus : s'.tradingPairStatuses = s.tradingPairStatuses)
    (hfee : s'.exchangeFee = s.exchangeFee) (hpools : ∀ p ∈ pairsOf path, s'.pool p = s.pool p)
    (n : ℕ) : targetAmountsFrom s' limit path n = targetAmountsFrom s limit path n := by
  induction path generalizing n with
  | nil => rfl
  | cons c path ih =>
      cases path with
      | nil => rfl
      | cons c' path =>
          have hliquidity : getLiquidity s' c c' = getLiquidity s c c' := by
            simp only [getLiquidity, hpools _ List.mem_cons_self]
          have hrest := ih fun p hp => hpools p (List.mem_cons_of_mem _ hp)
          simp only [targetAmountsFrom, State.tradingPairStatus, hstatus, hfee, hliquidity, hrest]

/-- A hop touches no pair but its own. -/
theorem swap_pool_of_ne {c c' : CurrencyId} {p : TradingPair} (h : p ≠ TradingPair.new c c')
    (n n' : ℕ) (s : State A E) : (swap c c' n n' s).pool p = s.pool p := by
  apply swap_pool_other
  intro hpair
  exact h (TradingPair.fromTokenCurrencyIds_eq_new hpair).symm

/-- **Hops one after another are the quotes of the path, applied.** -/
theorem hopsFrom_eq (h : (pairsOf path).Nodup) (n : ℕ) (s : State A E) :
    hopsFrom limit path n s = (targetAmountsFrom s limit path n).map
      fun amounts => (amounts.getLastD 0, swapByPath path amounts s) := by
  induction path generalizing n s with
  | nil => rfl
  | cons c path ih =>
      cases path with
      | nil => rfl
      | cons c' path =>
          obtain ⟨hfresh, hrest⟩ := List.nodup_cons.mp h
          rw [targetAmountsFrom_cons, hopsFrom]
          cases hquote : targetAmountsFrom s limit [c, c'] n with
          | error e => rfl
          | ok amounts =>
              obtain ⟨y, rfl, -⟩ := targetAmountsFrom_pair hquote
              obtain ⟨pools, hpools⟩ := swap_eq c c' n y s
              have hcongr : targetAmountsFrom (swap c c' n y s) limit (c' :: path) y
                  = targetAmountsFrom s limit (c' :: path) y := by
                apply targetAmountsFrom_congr
                · rw [hpools]
                · rw [hpools]
                · intro p hp
                  apply swap_pool_of_ne
                  rintro rfl
                  exact hfresh hp
              show hopsFrom limit (c' :: path) y (swap c c' n y s) = _
              rw [ih hrest, hcongr]
              cases hamounts : targetAmountsFrom s limit (c' :: path) y with
              | error e =>
                  simp only [List.getLastD_cons, List.getLastD_nil, hamounts]
                  rfl
              | ok rest =>
                  obtain ⟨-, hhead⟩ := targetAmountsFrom_spec (List.cons_ne_nil c' path) hamounts
                  simp only [List.getLastD_cons, List.getLastD_nil, hamounts]
                  cases rest with
                  | nil => cases hhead
                  | cons k rest =>
                      cases hhead
                      rfl

/-! ## The swaps -/

section Swaps

variable [DecidableEq A] {cfg : Config A E} {who : A} {y : ℕ}

omit [DecidableEq A] in
theorem swap_ledger (c c' : CurrencyId) (n n' : ℕ) (s : State A E) (l : Ledger CurrencyId A) :
    swap c c' n n' { s with ledger := l } = { swap c c' n n' s with ledger := l } := by
  unfold swap State.pool
  cases TradingPair.fromTokenCurrencyIds c c' <;> rfl

omit [DecidableEq A] in
theorem swapByPath_ledger (path : List CurrencyId) (amounts : List ℕ) (s : State A E)
    (l : Ledger CurrencyId A) :
    swapByPath path amounts { s with ledger := l }
      = { swapByPath path amounts s with ledger := l } := by
  induction path generalizing amounts s with
  | nil => simp [swapByPath]
  | cons c path ih =>
      rcases path with _ | ⟨c', path⟩
      · simp [swapByPath]
      · rcases amounts with _ | ⟨n, _ | ⟨n', amounts⟩⟩
        · simp [swapByPath]
        · simp [swapByPath]
        · rw [swapByPath, swapByPath, swap_ledger, ih]

/-- The supply is taken in and the payout handed out. -/
def Pays (cfg : Config A E) (who : A) (path : List CurrencyId) (n y : ℕ)
    (l l' : Ledger CurrencyId A) : Prop :=
  ∃ c c' l₁, pathEnds path = some (c, c') ∧
    Ledger.transfer cfg.rules c who cfg.accountId n l = .ok l₁ ∧
    Ledger.transfer cfg.rules c' cfg.accountId who y l₁ = .ok l'

theorem settleSwap_ok_iff {amounts : List ℕ} {u : Unit} :
    (settleSwap cfg who path amounts n y).run s = .ok u s' ↔
      ∃ l, Pays cfg who path n y s.ledger l ∧
        s' = { swapByPath path amounts s with ledger := l } := by
  constructor
  · intro h
    simp only [settleSwap, run_bind_ok, run_okOr_ok, transfer, run_onComponent_ok,
      run_modify_ok] at h
    obtain ⟨⟨c, c'⟩, _, ⟨hends, rfl⟩, -, _, ⟨l₁, hin, rfl⟩, -, _, rfl, l₂, hout, rfl⟩ := h
    rw [swapByPath_ledger] at hout ⊢
    exact ⟨l₂, ⟨c, c', l₁, hends, hin, hout⟩, rfl⟩
  · rintro ⟨l₂, ⟨c, c', l₁, hends, hin, hout⟩, rfl⟩
    simp only [settleSwap, run_bind_ok, run_okOr_ok, transfer, run_onComponent_ok, run_modify_ok]
    refine ⟨(c, c'), s, ⟨hends, rfl⟩, (), _, ⟨l₁, hin, rfl⟩, (), _, rfl, l₂, ?_, ?_⟩
    · rw [swapByPath_ledger]
      exact hout
    · rw [swapByPath_ledger]

/-- **When a swap goes through**: its quote, its minimum and its two transfers do. -/
theorem swap_quote_iff :
    (doSwapWithExactSupply cfg who path n m limit).run s = .ok y s' ↔
      ∃ amounts, getTargetAmounts cfg.tradingPathLimit s path n limit = .ok amounts ∧
        y = amounts.getLastD 0 ∧ m ≤ y ∧ ∃ l, Pays cfg who path n y s.ledger l ∧
          s' = { swapByPath path amounts s with ledger := l } := by
  simp only [doSwapWithExactSupply_ok_iff, settleSwap_ok_iff]

/-- **When a swap goes through, by its hops.** -/
theorem swap_ok_iff (hnodup : (pairsOf path).Nodup) (hlength : 2 ≤ path.length)
    (hlimit : path.length ≤ cfg.tradingPathLimit) :
    (doSwapWithExactSupply cfg who path n m limit).run s = .ok y s' ↔
      ∃ t, hopsFrom limit path n s = .ok (y, t) ∧ m ≤ y ∧
        ∃ l, Pays cfg who path n y s.ledger l ∧ s' = { t with ledger := l } := by
  have hquote : getTargetAmounts cfg.tradingPathLimit s path n limit
      = targetAmountsFrom s limit path n := if_neg (by omega)
  rw [swap_quote_iff, hopsFrom_eq hnodup, hquote]
  cases targetAmountsFrom s limit path n with
  | error e =>
      constructor
      · rintro ⟨_, ⟨⟩, _⟩
      · rintro ⟨_, ⟨⟩, _⟩
  | ok amounts =>
      constructor
      · rintro ⟨_, ⟨rfl⟩, rfl, hmin, hpays⟩
        exact ⟨_, rfl, hmin, hpays⟩
      · rintro ⟨t, ht, hmin, hpays⟩
        cases ht
        exact ⟨amounts, rfl, rfl, hmin, hpays⟩

/-- The single-hop swaps of a path, each with the payout of the one before it as its supply. -/
def hopByHop (cfg : Config A E) (who : A) (limit : Option ℕ) :
    List CurrencyId → ℕ → DexM A E ℕ
  | c :: c' :: path, n => do
      let target ← doSwapWithExactSupply cfg who [c, c'] n 0 limit
      hopByHop cfg who limit (c' :: path) target
  | _, n => pure n

omit [DecidableEq A] in
/-- Hops are a matter of the pools, the statuses and the fee. -/
theorem hopsFrom_ledger (path : List CurrencyId) (n : ℕ) (s : State A E)
    (l : Ledger CurrencyId A) :
    hopsFrom limit path n { s with ledger := l } =
      (hopsFrom limit path n s).map fun r => (r.1, { r.2 with ledger := l }) := by
  induction path generalizing n s with
  | nil => rfl
  | cons c path ih =>
      cases path with
      | nil => rfl
      | cons c' path =>
          have hcongr : targetAmountsFrom { s with ledger := l } limit [c, c'] n
              = targetAmountsFrom s limit [c, c'] n :=
            targetAmountsFrom_congr rfl rfl (fun _ _ => rfl) n
          rw [hopsFrom, hopsFrom, hcongr]
          cases targetAmountsFrom s limit [c, c'] n with
          | error e => rfl
          | ok amounts =>
              dsimp only
              rw [swapByPath_ledger, ih]

/-- **The single-hop swaps of a path are its hops.** -/
theorem hopByHop_ok (hlimit : 2 ≤ cfg.tradingPathLimit)
    (h : (hopByHop cfg who limit path n).run s = .ok y s') :
    ∃ t, hopsFrom limit path n s = .ok (y, t) ∧ s'.liquidityPool = t.liquidityPool := by
  induction path generalizing n s with
  | nil =>
      obtain ⟨rfl, rfl⟩ := run_pure_ok.mp h
      exact ⟨s, rfl, rfl⟩
  | cons c path ih =>
      cases path with
      | nil =>
          obtain ⟨rfl, rfl⟩ := run_pure_ok.mp h
          exact ⟨s, rfl, rfl⟩
      | cons c' path =>
          obtain ⟨target, s₁, hhop, hrest⟩ := run_bind_ok.mp h
          obtain ⟨amounts, hquote, rfl, -, l, -, rfl⟩ := swap_quote_iff.mp hhop
          have hpair : targetAmountsFrom s limit [c, c'] n = .ok amounts := by
            have hlength : ¬ ([c, c'].length < 2 ∨ cfg.tradingPathLimit < [c, c'].length) := by
              simp only [List.length_cons, List.length_nil]
              omega
            rw [getTargetAmounts, if_neg hlength] at hquote
            exact hquote
          obtain ⟨t, ht, hpools⟩ := ih hrest
          rw [hopsFrom_ledger] at ht
          rw [hopsFrom, hpair]
          dsimp only
          cases hhops : hopsFrom limit (c' :: path) (amounts.getLastD 0)
              (swapByPath [c, c'] amounts s) with
          | error e =>
              rw [hhops] at ht
              cases ht
          | ok r =>
              rw [hhops] at ht
              cases ht
              exact ⟨r.2, rfl, hpools⟩

/-! ## Exact targets -/

/-- No supply of the quote is capped once the fee is taken off. -/
def Uncapped (fee : ℕ × ℕ) (path : List CurrencyId) (amounts : List ℕ) : Prop :=
  HopsMeet (fun _ _ n _ => n * (fee.2 - fee.1) ≤ Balance.maxValue) path amounts

omit [DecidableEq A] in
/-- The exact-supply quotes of what an exact-target quote charges deliver the target. -/
theorem targetAmountsFrom_of_supply (hn : s.exchangeFee.1 < s.exchangeFee.2)
    (hu32 : s.exchangeFee.2 < 2 ^ 32)
    (hpools : ∀ c c', (getLiquidity s c c').1 ≤ Balance.maxValue ∧
      (getLiquidity s c c').2 ≤ Balance.maxValue)
    {t supply : ℕ} {amounts : List ℕ} (h : supplyAmountsTo s limit path t = .ok amounts)
    (hfits : Uncapped s.exchangeFee path amounts) (hsupply : amounts.headD 0 ≤ supply) :
    ∃ targets, targetAmountsFrom s none path supply = .ok targets ∧ t ≤ targets.getLastD 0 := by
  induction path generalizing amounts supply with
  | nil =>
      cases h
      exact ⟨[supply], rfl, hsupply⟩
  | cons c path ih =>
      cases path with
      | nil =>
          cases h
          exact ⟨[supply], rfl, hsupply⟩
      | cons c' path =>
          obtain ⟨rest, hrest, henabled, hpool, -, a, ha, hne, rfl⟩ := supplyAmountsTo_cons_ok h
          obtain ⟨a', rest, rfl⟩ : ∃ a' rest', rest = a' :: rest' := by
            have hlength := (supplyAmountsTo_spec (List.cons_ne_nil c' _) hrest).1.length_eq
            cases rest with
            | nil => cases hlength
            | cons a' rest => exact ⟨a', rest, rfl⟩
          rw [List.headD_cons] at ha hsupply
          obtain ⟨hfit, hfits⟩ := hfits
          obtain ⟨hxm, hym⟩ := hpools c c'
          have hpos : 0 < getSupplyAmount s.exchangeFee (getLiquidity s c c').1
              (getLiquidity s c c').2 a' := by omega
          obtain ⟨ha', hx, hy⟩ := getSupplyAmount_pos hpos
          rw [ha] at hfit
          have hbuys := le_getTargetAmount_getSupplyAmount hx hxm hym hy hn hu32
            (cap_of_supply_fits hn hym hu32 hpos hfit) hpos
          rw [← ha] at hbuys
          have hpays : a' ≤ getTargetAmount s.exchangeFee (getLiquidity s c c').1
              (getLiquidity s c c').2 supply :=
            Nat.le_trans hbuys (getTargetAmount_mono hx hxm hym (by omega) hu32 hsupply)
          obtain ⟨targets, htargets, ht⟩ := ih hrest hfits hpays
          refine ⟨supply :: targets, ?_, ?_⟩
          · exact targetAmountsFrom_cons_ok.mpr
              ⟨henabled, hpool, by omega, rfl, targets, htargets, rfl⟩
          · cases targets with
            | nil =>
                obtain ⟨-, hhead⟩ := targetAmountsFrom_spec (List.cons_ne_nil c' _) htargets
                cases hhead
            | cons k targets => simpa using ht

/-- **A swap along a path and its hops.** A swap goes through exactly if its hops, taken one after
another, do, the payout meets the minimum and its two transfers are accepted. Single-hop swaps that
go through pay the same and leave the same pools. What an exact-target swap charges is quoted at
least the target, if no supply on the way is capped. -/
theorem multi_hop (hnodup : (pairsOf path).Nodup) (hlength : 2 ≤ path.length)
    (hlimit : path.length ≤ cfg.tradingPathLimit) :
    (∀ n m y s', (doSwapWithExactSupply cfg who path n m limit).run s = .ok y s' ↔
      ∃ t, hopsFrom limit path n s = .ok (y, t) ∧ m ≤ y ∧
        ∃ l, Pays cfg who path n y s.ledger l ∧ s' = { t with ledger := l }) ∧
    (∀ n z s'', (hopByHop cfg who limit path n).run s = .ok z s'' →
      (∀ m y s', (doSwapWithExactSupply cfg who path n m limit).run s = .ok y s' →
        y = z ∧ s'.liquidityPool = s''.liquidityPool) ∧
      ∀ m, m ≤ z → (∃ l, Pays cfg who path n z s.ledger l) →
        ∃ s', (doSwapWithExactSupply cfg who path n m limit).run s = .ok z s') ∧
    ∀ t m n s', (doSwapWithExactTarget cfg who path t m limit).run s = .ok n s' →
      s.exchangeFee.1 < s.exchangeFee.2 → s.exchangeFee.2 < 2 ^ 32 →
      (∀ c c', (getLiquidity s c c').1 ≤ Balance.maxValue ∧
        (getLiquidity s c c').2 ≤ Balance.maxValue) →
      (∀ amounts, getSupplyAmounts cfg.tradingPathLimit s path t limit = .ok amounts →
        Uncapped s.exchangeFee path amounts) →
      ∃ y u, hopsFrom none path n s = .ok (y, u) ∧ t ≤ y := by
  refine ⟨fun n m y s' => swap_ok_iff hnodup hlength hlimit, ?_, ?_⟩
  · intro n z s'' hhops
    obtain ⟨t, ht, hpools⟩ := hopByHop_ok (by omega) hhops
    constructor
    · intro m y s' hswap
      obtain ⟨u, hu, -, l, -, rfl⟩ := (swap_ok_iff hnodup hlength hlimit).mp hswap
      cases hu.symm.trans ht
      exact ⟨rfl, hpools.symm⟩
    · rintro m hm ⟨l, hl⟩
      exact ⟨_, (swap_ok_iff hnodup hlength hlimit).mpr ⟨t, ht, hm, l, hl, rfl⟩⟩
  · intro t m n s' hswap hn hu32 hpools hfits
    obtain ⟨amounts, hquote, rfl, -, -⟩ := doSwapWithExactTarget_ok_iff.mp hswap
    have hsupply : supplyAmountsTo s limit path t = .ok amounts := by
      rw [getSupplyAmounts, if_neg (by omega)] at hquote
      exact hquote
    obtain ⟨targets, htargets, ht⟩ := targetAmountsFrom_of_supply hn hu32 hpools hsupply
      (hfits amounts hquote) (Nat.le_refl _)
    refine ⟨targets.getLastD 0, swapByPath path targets s, ?_, ht⟩
    rw [hopsFrom_eq hnodup, htargets]
    rfl

/-- A holding below ten is refused. -/
def thresholdConfig : Config ℕ Unit :=
  { sampleConfig with
    rules :=
      { Ledger.Rules.permissive with
        transferAllowed := fun l c _ target n => 10 ≤ l.free c target + n } }

/-- Account 1 holds DNAR, for two pools of a million to a hundred. -/
def hopsState : State ℕ Unit :=
  { sampleState with
    ledger :=
      { free := fun c a => if a = 0 then 1000000 else if c = .Token .DNAR then 50000 else 0
        issuance := fun _ => 0
        free_le := fun c a => by
          split
          · decide
          · split <;> decide
        issuance_le := fun _ => Nat.zero_le _ }
    liquidityPool := ((∅ : StorageMap.Map TradingPair (ℕ × ℕ)).insert
      (TradingPair.new (.Token .DNAR) (.Token .USDJ)) (1000000, 100)).insert
        (TradingPair.new (.Token .USDJ) (.Token .SETT)) (1000000, 100)
    tradingPairStatuses := ((∅ : StorageMap.Map TradingPair TradingPairStatus).insert
      (TradingPair.new (.Token .DNAR) (.Token .USDJ)) .Enabled).insert
        (TradingPair.new (.Token .USDJ) (.Token .SETT)) .Enabled }

def samplePath : List CurrencyId := [.Token .DNAR, .Token .USDJ, .Token .SETT]

theorem hopsState_getLiquidity_le (c c' : CurrencyId) :
    (getLiquidity hopsState c c').1 ≤ Balance.maxValue ∧
      (getLiquidity hopsState c c').2 ≤ Balance.maxValue := by
  have hpool : ∀ p, (hopsState.pool p).1 ≤ Balance.maxValue ∧
      (hopsState.pool p).2 ≤ Balance.maxValue := by
    intro p
    unfold State.pool hopsState
    dsimp only
    by_cases h : p = TradingPair.new (.Token .USDJ) (.Token .SETT)
    · rw [h, StorageMap.get_insert]
      decide
    · rw [StorageMap.get_insert_ne _ _ _ h]
      by_cases h' : p = TradingPair.new (.Token .DNAR) (.Token .USDJ)
      · rw [h', StorageMap.get_insert]
        decide
      · rw [StorageMap.get_insert_ne _ _ _ h']
        exact ⟨Nat.zero_le _, Nat.zero_le _⟩
  unfold getLiquidity
  dsimp only
  split
  · exact hpool _
  · exact (hpool _).symm

/-- Account 1 swaps along the sample path: in one call, hop by hop, and for an exact target. -/
theorem multi_hop_samplePath : ∃ y s' z s'' n u,
    (doSwapWithExactSupply sampleConfig 1 samplePath 50000 0 none).run hopsState = .ok y s' ∧
      (hopByHop sampleConfig 1 none samplePath 50000).run hopsState = .ok z s'' ∧
      (doSwapWithExactTarget sampleConfig 1 samplePath 30000 50000 none).run hopsState
        = .ok n u ∧
      (∃ t, hopsFrom none samplePath 50000 hopsState = .ok (y, t) ∧ 0 ≤ y ∧
        ∃ l, Pays sampleConfig 1 samplePath 50000 y hopsState.ledger l ∧
          s' = { t with ledger := l }) ∧
      (y = z ∧ s'.liquidityPool = s''.liquidityPool) ∧
      ∃ w v, hopsFrom none samplePath n hopsState = .ok (w, v) ∧ 30000 ≤ w := by
  obtain ⟨y, s', hswap⟩ := exists_run_ok (x := doSwapWithExactSupply sampleConfig 1 samplePath
    50000 0 none) (s := hopsState) (by decide +kernel)
  obtain ⟨z, s'', hhops⟩ := exists_run_ok (x := hopByHop sampleConfig 1 none samplePath 50000)
    (s := hopsState) (by decide +kernel)
  obtain ⟨n, u, htarget⟩ := exists_run_ok (x := doSwapWithExactTarget sampleConfig 1 samplePath
    30000 50000 none) (s := hopsState) (by decide +kernel)
  obtain ⟨hiff, hsingle, hexact⟩ := @multi_hop ℕ Unit hopsState none samplePath _ sampleConfig 1
    (by decide) (by decide) (by decide)
  refine ⟨y, s', z, s'', n, u, hswap, hhops, htarget, (hiff 50000 0 y s').mp hswap,
    (hsingle 50000 z s'' hhops).1 0 y s' hswap,
    hexact 30000 50000 n u htarget (by decide) (by decide) hopsState_getLiquidity_le
      fun amounts hamounts => ?_⟩
  have hquote : getSupplyAmounts sampleConfig.tradingPathLimit hopsState samplePath 30000 none
      = .ok [42088, 4, 30000] := by
    decide +kernel
  cases hquote.symm.trans hamounts
  exact ⟨by decide, by decide, trivial⟩

/-- **A swap can go through where one of its hops would not.** The first hop pays 4 USDJ, which its
receiver may not hold; the swap does not hand them out. -/
theorem swap_without_hop :
    succeeds (hopByHop thresholdConfig 1 none samplePath 50000) hopsState = false ∧
      succeeds (doSwapWithExactSupply thresholdConfig 1 samplePath 50000 0 none) hopsState
        = true := by
  decide +kernel

/-! ## Swaps in two parts -/

/-- What a swap pays; one that fails pays nothing. -/
def payout (x : DexM A E ℕ) (s : State A E) : ℕ :=
  match x.run s with
  | .ok y _ => y
  | .error _ _ => 0

omit [DecidableEq A] in
/-- The pool of a hop after it. -/
theorem getLiquidity_swap {c c' : CurrencyId} (hvalid : (TradingPair.new c c').Valid) (n n' : ℕ)
    (s : State A E) :
    getLiquidity (swap c c' n n' s) c c'
      = (Balance.saturatingAdd (getLiquidity s c c').1 n, (getLiquidity s c c').2 - n') := by
  simp only [getLiquidity, swap_pool_self (TradingPair.fromTokenCurrencyIds_of_valid hvalid)]
  split <;> rfl

/-- What a swap of one hop does. -/
theorem single_swap_ok {c c' : CurrencyId}
    (h : (doSwapWithExactSupply cfg who [c, c'] n m limit).run s = .ok y s') :
    y = getTargetAmount s.exchangeFee (getLiquidity s c c').1 (getLiquidity s c c').2 n ∧
      ∃ l, s' = { swap c c' n y s with ledger := l } := by
  obtain ⟨amounts, hquote, rfl, -, l, -, rfl⟩ := swap_quote_iff.mp h
  unfold getTargetAmounts at hquote
  split at hquote
  · cases hquote
  · obtain ⟨y, rfl, hy⟩ := targetAmountsFrom_pair hquote
    exact ⟨hy, l, rfl⟩

theorem payout_le {c c' : CurrencyId} :
    payout (doSwapWithExactSupply cfg who [c, c'] n m limit) s
      ≤ getTargetAmount s.exchangeFee (getLiquidity s c c').1 (getLiquidity s c c').2 n := by
  unfold payout
  cases h : (doSwapWithExactSupply cfg who [c, c'] n m limit).run s with
  | ok y s' => exact (single_swap_ok h).1.le
  | error e s' => exact Nat.zero_le _

/-- **No advantage from splitting.** Two swaps of a hop, by anyone and on any terms, pay together
at most what one swap of both supplies is quoted, and pays. The quote is less than the pool and
grows with the supply. -/
theorem no_split_advantage {c c' : CurrencyId} {x₁ x₂ : ℕ} (who₁ who₂ : A) (m₁ m₂ : ℕ)
    (limit₁ limit₂ : Option ℕ) (hvalid : (TradingPair.new c c').Valid)
    (hx : 0 < (getLiquidity s c c').1) (hy : 0 < (getLiquidity s c c').2)
    (hym : (getLiquidity s c c').2 ≤ Balance.maxValue)
    (hn : s.exchangeFee.1 < s.exchangeFee.2) (hu32 : s.exchangeFee.2 < 2 ^ 32)
    (hfee : (x₁ + x₂) * (s.exchangeFee.2 - s.exchangeFee.1) ≤ Balance.maxValue)
    (hpool : (getLiquidity s c c').1 + x₁ + x₂ ≤ Balance.maxValue) :
    let quoted := getTargetAmount s.exchangeFee (getLiquidity s c c').1 (getLiquidity s c c').2
    let first := doSwapWithExactSupply cfg who₁ [c, c'] x₁ m₁ limit₁
    payout first s +
        payout (doSwapWithExactSupply cfg who₂ [c, c'] x₂ m₂ limit₂) (commit first s)
      ≤ quoted (x₁ + x₂) ∧
    (∀ who m limit y s', (doSwapWithExactSupply cfg who [c, c'] (x₁ + x₂) m limit).run s
      = .ok y s' → y = quoted (x₁ + x₂)) ∧
    quoted (x₁ + x₂) < (getLiquidity s c c').2 ∧ ∀ k k', k ≤ k' → quoted k ≤ quoted k' := by
  intro quoted first
  have hxm : (getLiquidity s c c').1 ≤ Balance.maxValue := by omega
  have hd : 0 < s.exchangeFee.2 := by omega
  have hmono : ∀ k k', k ≤ k' → quoted k ≤ quoted k' :=
    fun k k' hk => getTargetAmount_mono hx hxm hym hd hu32 hk
  refine ⟨?_, ?_, getTargetAmount_lt hx hxm hy hym hd hu32, hmono⟩
  · cases h : first.run s with
    | error e t =>
        -- the first swap failed, and the second is quoted on the same pool
        have hzero : payout first s = 0 := by rw [payout, h]
        have hsame : commit first s = s := (commit_of_error h).trans (transactional_error h)
        rw [hzero, hsame, Nat.zero_add]
        exact Nat.le_trans payout_le (hmono _ _ (by omega))
    | ok y t =>
        have hpays : payout first s = y := by rw [payout, h]
        obtain ⟨rfl, l, rfl⟩ := single_swap_ok h
        rw [hpays, commit_of_ok h]
        -- the second swap is quoted on the pool with the whole first supply in it
        have hafter : getLiquidity { swap c c' x₁ (quoted x₁) s with ledger := l } c c'
            = ((getLiquidity s c c').1 + x₁, (getLiquidity s c c').2 - quoted x₁) := by
          have hpool₁ : (getLiquidity s c c').1 + x₁ ≤ Balance.maxValue := by omega
          have hswap := getLiquidity_swap hvalid x₁ (quoted x₁) s
          rw [Balance.saturatingAdd_eq hpool₁] at hswap
          exact hswap
        have hfees : ({ swap c c' x₁ (quoted x₁) s with ledger := l } : State A E).exchangeFee
            = s.exchangeFee := by
          obtain ⟨pools, hpools⟩ := swap_eq c c' x₁ (quoted x₁) s
          rw [hpools]
        have hsecond : payout (doSwapWithExactSupply cfg who₂ [c, c'] x₂ m₂ limit₂)
              { swap c c' x₁ (quoted x₁) s with ledger := l }
            ≤ getTargetAmount s.exchangeFee ((getLiquidity s c c').1 + x₁)
                ((getLiquidity s c c').2 - quoted x₁) x₂ := by
          have hle : payout (doSwapWithExactSupply cfg who₂ [c, c'] x₂ m₂ limit₂)
              { swap c c' x₁ (quoted x₁) s with ledger := l } ≤ _ := payout_le
          rw [hafter, hfees] at hle
          exact hle
        exact Nat.le_trans (Nat.add_le_add_left hsecond _)
          (getTargetAmount_split hx hym hd hu32 hfee hpool)
  · intro who m limit y s' h
    exact (single_swap_ok h).1

theorem no_split_advantage_sample :
    payout (doSwapWithExactSupply sampleConfig 1 [.Token .DNAR, .Token .USDJ] 20000 0 none)
          hopsState +
        payout (doSwapWithExactSupply sampleConfig 1 [.Token .DNAR, .Token .USDJ] 30000 0 none)
          (commit (doSwapWithExactSupply sampleConfig 1 [.Token .DNAR, .Token .USDJ] 20000 0
            none) hopsState)
      ≤ getTargetAmount (1, 100) 1000000 100 50000 :=
  have hvalid : (TradingPair.new (.Token .DNAR) (.Token .USDJ)).Valid := rfl
  (no_split_advantage 1 1 0 0 none none hvalid (by decide) (by decide) (by decide) (by decide)
    (by decide) (by decide) (by decide)).1

end Swaps

end Setheum.Dex
