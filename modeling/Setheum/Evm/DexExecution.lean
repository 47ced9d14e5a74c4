import Setheum.Dex.Accounting
import Setheum.Evm.DexPrecompile
import Setheum.Lib.Abi

/-!
# What the precompile of the exchange does

The precompile runs the call that an input asks for and returns a word for each number that the
exchange answers with. An error of the exchange is returned as its message.

* `execute_callData` — a contract that asks with call data gets the answer of the exchange to that
  call, or an error that changes nothing.
* `run_refines` — a run of the exchange whose calls come from accounts and from contracts is a run
  of calls from accounts.
-/

set_option autoImplicit false

namespace Setheum.Dex

open StorageMap

variable {A E : Type}

/-! ## The exchange as other pallets see it -/

def getLiquidityTokenAddress (m : EvmManager.CurrencyIdMap)
    (currencyIdA currencyIdB : CurrencyId) : Option EvmAddress := do
  let tradingPair ← TradingPair.fromTokenCurrencyIds currencyIdA currencyIdB
  let dexShareCurrencyId ← tradingPair.getDexShareCurrencyId
  m.encodeEvmAddress dexShareCurrencyId

def getSwapTargetAmount (pathLimit : ℕ) (s : State A E) (path : List CurrencyId)
    (supplyAmount : ℕ) (priceImpactLimit : Option ℕ) : Option ℕ :=
  (getTargetAmounts pathLimit s path supplyAmount priceImpactLimit).toOption.map
    fun amounts => amounts.getLastD 0

def getSwapSupplyAmount (pathLimit : ℕ) (s : State A E) (path : List CurrencyId)
    (targetAmount : ℕ) (priceImpactLimit : Option ℕ) : Option ℕ :=
  (getSupplyAmounts pathLimit s path targetAmount priceImpactLimit).toOption.map
    fun amounts => amounts.headD 0

/-! ## Bounds -/

theorem capped_le (n : ℕ) : (if n ≤ Balance.maxValue then n else 0) ≤ Balance.maxValue := by
  split
  · assumption
  · exact Nat.zero_le _

theorem getTargetAmount_le_maxValue (fee : ℕ × ℕ) (x y n : ℕ) :
    getTargetAmount fee x y n ≤ Balance.maxValue := by
  unfold getTargetAmount
  split
  · exact Nat.zero_le _
  · dsimp only
    split
    · exact Nat.zero_le _
    · exact capped_le _

theorem getSupplyAmount_le_maxValue (fee : ℕ × ℕ) (x y n : ℕ) :
    getSupplyAmount fee x y n ≤ Balance.maxValue := by
  unfold getSupplyAmount
  split
  · exact Nat.zero_le _
  · dsimp only
    split
    · exact Nat.zero_le _
    · exact capped_le _

/-- Every amount after the first is a balance. -/
theorem targetAmountsFrom_le {s : State A E} {limit : Option ℕ} :
    ∀ {path : List CurrencyId} {amount : ℕ} {amounts : List ℕ}, amount ≤ Balance.maxValue →
      targetAmountsFrom s limit path amount = .ok amounts → amounts.getLastD 0 ≤ Balance.maxValue
  | [], amount, amounts, hamount, h => by
      cases h
      exact hamount
  | [c], amount, amounts, hamount, h => by
      cases h
      exact hamount
  | c :: c' :: path, amount, amounts, _, h => by
      obtain ⟨-, -, -, -, rest, hrest, rfl⟩ := targetAmountsFrom_cons_ok.mp h
      have hle := targetAmountsFrom_le (getTargetAmount_le_maxValue ..) hrest
      obtain ⟨hq, -⟩ := targetAmountsFrom_spec (List.cons_ne_nil c' path) hrest
      cases rest with
      | nil => exact absurd hq.length_eq (by simp)
      | cons x rest => exact hle

theorem of_toOption_map_eq_some {ε α β : Type} {x : Except ε α} {f : α → β} {y : β}
    (h : x.toOption.map f = some y) : ∃ a, x = .ok a ∧ f a = y := by
  cases x with
  | error e => cases h
  | ok a => exact ⟨a, rfl, Option.some.inj h⟩

theorem getSwapTargetAmount_le {pathLimit n x : ℕ} {s : State A E} {path : List CurrencyId}
    {limit : Option ℕ} (hn : n ≤ Balance.maxValue)
    (h : getSwapTargetAmount pathLimit s path n limit = some x) : x ≤ Balance.maxValue := by
  obtain ⟨amounts, hquote, rfl⟩ := of_toOption_map_eq_some h
  unfold getTargetAmounts at hquote
  split at hquote
  · cases hquote
  · exact targetAmountsFrom_le hn hquote

/-- The first amount of a quote from its end is a balance. -/
theorem supplyAmountsTo_le {s : State A E} {limit : Option ℕ} {path : List CurrencyId}
    {amount : ℕ} {amounts : List ℕ} (hamount : amount ≤ Balance.maxValue)
    (h : supplyAmountsTo s limit path amount = .ok amounts) :
    amounts.headD 0 ≤ Balance.maxValue := by
  match path with
  | [] =>
      cases h
      exact hamount
  | [c] =>
      cases h
      exact hamount
  | c :: c' :: path =>
      obtain ⟨rest, -, -, -, -, supply, rfl, -, rfl⟩ := supplyAmountsTo_cons_ok h
      exact getSupplyAmount_le_maxValue ..

theorem getSwapSupplyAmount_le {pathLimit n x : ℕ} {s : State A E} {path : List CurrencyId}
    {limit : Option ℕ} (hn : n ≤ Balance.maxValue)
    (h : getSwapSupplyAmount pathLimit s path n limit = some x) : x ≤ Balance.maxValue := by
  obtain ⟨amounts, hquote, rfl⟩ := of_toOption_map_eq_some h
  unfold getSupplyAmounts at hquote
  split at hquote
  · cases hquote
  · exact supplyAmountsTo_le hn hquote

/-- Both sides of every pool are balances. -/
def State.PoolsFit (s : State A E) : Prop :=
  ∀ p, (s.pool p).1 ≤ Balance.maxValue ∧ (s.pool p).2 ≤ Balance.maxValue

theorem State.PoolsFit.getLiquidity_le {s : State A E} (h : s.PoolsFit) (c c' : CurrencyId) :
    (getLiquidity s c c').1 ≤ Balance.maxValue ∧ (getLiquidity s c c').2 ≤ Balance.maxValue := by
  obtain ⟨h0, h1⟩ := h (TradingPair.new c c')
  unfold getLiquidity
  dsimp only
  split
  · exact ⟨h0, h1⟩
  · exact ⟨h1, h0⟩

end Setheum.Dex

namespace Setheum.Evm

namespace DexPrecompile

open Checked BigEndian Dispatch InputT

variable {A E : Type} [DecidableEq A]

/-! ## Execution -/

abbrev PrecompileM (A E : Type) := Dispatch (Failure String) (Dex.State A E)

section Execution

variable (b : Build) (cfg : Dex.Config A E) (m : EvmManager.CurrencyIdMap)
variable (getAccountId : EvmAddress → A) (message : Dex.DispatchError → String)

/-- The numbers that a call returns. `message` is the text of a dispatch error. -/
def perform : Call A → PrecompileM A E (List ℕ)
  | .getLiquidityPool currencyIdA currencyIdB => do
      let s ← get
      let (balanceA, balanceB) := Dex.getLiquidity s currencyIdA currencyIdB
      return [balanceA, balanceB]
  | .getLiquidityTokenAddress currencyIdA currencyIdB => do
      let value ← Dispatch.okOr (Dex.getLiquidityTokenAddress m currencyIdA currencyIdB)
        (.error "Dex get_liquidity_token_address failed")
      return [value.toNat]
  | .getSwapTargetAmount path supplyAmount => do
      let s ← get
      let value ← Dispatch.okOr (Dex.getSwapTargetAmount cfg.tradingPathLimit s path supplyAmount none)
        (.error "Dex get_swap_target_amount failed")
      return [value]
  | .getSwapSupplyAmount path targetAmount => do
      let s ← get
      let value ← Dispatch.okOr (Dex.getSwapSupplyAmount cfg.tradingPathLimit s path targetAmount none)
        (.error "Dex get_swap_supply_amount failed")
      return [value]
  | .swapWithExactSupply who path supplyAmount minTargetAmount => do
      let value ← wrapError (fun e => .error (message e))
        (Dex.doSwapWithExactSupply cfg who path supplyAmount minTargetAmount none)
      return [value]
  | .swapWithExactTarget who path targetAmount maxSupplyAmount => do
      let value ← wrapError (fun e => .error (message e))
        (Dex.doSwapWithExactTarget cfg who path targetAmount maxSupplyAmount none)
      return [value]
  | .addLiquidity who currencyIdA currencyIdB maxAmountA maxAmountB minShareIncrement => do
      wrapError (fun e => .error (message e)) <| transactional
        (Dex.doAddLiquidity cfg who currencyIdA currencyIdB maxAmountA maxAmountB
          minShareIncrement false)
      return []
  | .removeLiquidity who currencyIdA currencyIdB removeShare minWithdrawnA minWithdrawnB => do
      wrapError (fun e => .error (message e)) <| transactional
        (Dex.doRemoveLiquidity cfg who currencyIdA currencyIdB removeShare minWithdrawnA
          minWithdrawnB false)
      return []

/-- The words of an output. -/
def output (words : List ℕ) : List UInt8 := (words.map (toBytes 32)).flatten

/-- The output and the gas that it costs; the precompile always exits as returned. -/
def execute (content : List UInt8) : PrecompileM A E (List UInt8 × ℕ) := do
  let call ← Dispatch.ofExcept (decode b (mappings m getAccountId) content)
  let words ← perform cfg m message call
  return (output words, 0)

end Execution

/-! ## What a call answers -/

section Answers

variable (cfg : Dex.Config A E) (m : EvmManager.CurrencyIdMap)

/-- The numbers that the exchange answers a call with, and the state that the call leaves. -/
def Call.Answered (s s' : Dex.State A E) : Call A → List ℕ → Prop
  | .getLiquidityPool currencyIdA currencyIdB, words =>
      words = [(Dex.getLiquidity s currencyIdA currencyIdB).1,
        (Dex.getLiquidity s currencyIdA currencyIdB).2] ∧ s' = s
  | .getLiquidityTokenAddress currencyIdA currencyIdB, words =>
      ∃ address, Dex.getLiquidityTokenAddress m currencyIdA currencyIdB = some address ∧
        words = [address.toNat] ∧ s' = s
  | .getSwapTargetAmount path amount, words =>
      ∃ n, Dex.getSwapTargetAmount cfg.tradingPathLimit s path amount none = some n ∧
        words = [n] ∧ s' = s
  | .getSwapSupplyAmount path amount, words =>
      ∃ n, Dex.getSwapSupplyAmount cfg.tradingPathLimit s path amount none = some n ∧
        words = [n] ∧ s' = s
  | .swapWithExactSupply who path amount limit, words =>
      ∃ n, (Dex.doSwapWithExactSupply cfg who path amount limit none).run s = .ok n s' ∧
        words = [n]
  | .swapWithExactTarget who path amount limit, words =>
      ∃ n, (Dex.doSwapWithExactTarget cfg who path amount limit none).run s = .ok n s' ∧
        words = [n]
  | .addLiquidity who currencyIdA currencyIdB x y z, words =>
      (Dex.doAddLiquidity cfg who currencyIdA currencyIdB x y z false).run s = .ok () s' ∧
        words = []
  | .removeLiquidity who currencyIdA currencyIdB x y z, words =>
      (Dex.doRemoveLiquidity cfg who currencyIdA currencyIdB x y z false).run s = .ok () s' ∧
        words = []

variable {cfg m} {message : Dex.DispatchError → String} {s s' : Dex.State A E} {call : Call A}
  {words : List ℕ}

theorem perform_ok_iff :
    (perform cfg m message call).run s = .ok words s' ↔ call.Answered cfg m s s' words := by
  cases call with
  | getLiquidityPool x y =>
      simp only [perform, run_bind_ok, run_get_ok, run_pure_ok, Call.Answered]
      constructor
      · rintro ⟨t, t', ⟨rfl, rfl⟩, rfl, rfl⟩
        exact ⟨rfl, rfl⟩
      · rintro ⟨rfl, rfl⟩
        exact ⟨_, _, ⟨rfl, rfl⟩, rfl, rfl⟩
  | getLiquidityTokenAddress x y =>
      simp only [perform, run_bind_ok, run_okOr_ok, run_pure_ok, Call.Answered]
      constructor
      · rintro ⟨address, _, ⟨haddress, rfl⟩, rfl, rfl⟩
        exact ⟨address, haddress, rfl, rfl⟩
      · rintro ⟨address, haddress, rfl, rfl⟩
        exact ⟨address, _, ⟨haddress, rfl⟩, rfl, rfl⟩
  | getSwapTargetAmount path n | getSwapSupplyAmount path n =>
      simp only [perform, run_bind_ok, run_get_ok, run_okOr_ok, run_pure_ok, Call.Answered]
      constructor
      · rintro ⟨t, t', ⟨rfl, rfl⟩, x, _, ⟨hx, rfl⟩, rfl, rfl⟩
        exact ⟨x, hx, rfl, rfl⟩
      · rintro ⟨x, hx, rfl, rfl⟩
        exact ⟨_, _, ⟨rfl, rfl⟩, x, _, ⟨hx, rfl⟩, rfl, rfl⟩
  | swapWithExactSupply who path n limit | swapWithExactTarget who path n limit =>
      simp only [perform, run_bind_ok, run_wrapError_ok, run_pure_ok, Call.Answered]
      constructor
      · rintro ⟨x, _, hswap, rfl, rfl⟩
        exact ⟨x, hswap, rfl⟩
      · rintro ⟨x, hswap, rfl⟩
        exact ⟨x, _, hswap, rfl, rfl⟩
  | addLiquidity who x y n₀ n₁ n₂ | removeLiquidity who x y n₀ n₁ n₂ =>
      simp only [perform, run_bind_ok, run_wrapError_ok, run_transactional_ok, run_pure_ok,
        Call.Answered]
      constructor
      · rintro ⟨_, _, hrun, rfl, rfl⟩
        exact ⟨hrun, rfl⟩
      · rintro ⟨hrun, rfl⟩
        exact ⟨(), _, hrun, rfl, rfl⟩

/-- **A call that fails leaves the exchange as it was.** -/
theorem perform_failsClean (call : Call A) : FailsClean (perform (E := E) cfg m message call) := by
  cases call with
  | getLiquidityPool x y =>
      exact failsClean_bind silent_get fun s => (neverFails_pure _).failsClean
  | getLiquidityTokenAddress x y =>
      exact failsClean_bind silent_okOr fun value => (neverFails_pure _).failsClean
  | getSwapTargetAmount path n | getSwapSupplyAmount path n =>
      exact failsClean_bind silent_get fun s =>
        failsClean_bind silent_okOr fun value => (neverFails_pure _).failsClean
  | swapWithExactSupply who path n limit | swapWithExactTarget who path n limit =>
      exact failsClean_bind_neverFails ((failsClean_transactional _).wrapError _)
        fun value => neverFails_pure _
  | addLiquidity who x y n₀ n₁ n₂ | removeLiquidity who x y n₀ n₁ n₂ =>
      exact failsClean_bind_neverFails ((failsClean_transactional _).wrapError _)
        fun value => neverFails_pure _

/-- The exchange's errors are texts. -/
theorem perform_ne_panic {e : Failure String}
    (h : (perform cfg m message call).run s = .error e s') : e ≠ .panic := by
  cases call with
  | getLiquidityPool x y =>
      simp only [perform, run_bind_error, run_get_error, run_pure_error] at h
      grind
  | getLiquidityTokenAddress x y =>
      simp only [perform, run_bind_error, run_okOr_error, run_pure_error] at h
      grind
  | getSwapTargetAmount path n | getSwapSupplyAmount path n =>
      simp only [perform, run_bind_error, run_get_error, run_okOr_error, run_pure_error] at h
      grind
  | swapWithExactSupply who path n limit | swapWithExactTarget who path n limit =>
      simp only [perform, run_bind_error, run_wrapError_error, run_pure_error] at h
      grind
  | addLiquidity who x y n₀ n₁ n₂ | removeLiquidity who x y n₀ n₁ n₂ =>
      simp only [perform, run_bind_error, run_wrapError_error, run_pure_error] at h
      grind

end Answers

/-! ## What a contract gets -/

section Contracts

variable {b : Build} {cfg : Dex.Config A E} {m : EvmManager.CurrencyIdMap}
  {getAccountId : EvmAddress → A} {message : Dex.DispatchError → String}
  {s s' : Dex.State A E} {content : List UInt8} {call : Call A} {words : List ℕ}

theorem execute_ok_iff (hbounded : Bounded b content) {answer : List UInt8 × ℕ} :
    (execute b cfg m getAccountId message content).run s = .ok answer s' ↔
      ∃ call : Call A, call.Carried (mappings m getAccountId) content ∧
        ∃ words : List ℕ, call.Answered cfg m s s' words ∧ (output words, 0) = answer := by
  simp only [execute, run_bind_ok, run_ofExcept_ok, decode_eq_ok_iff hbounded, perform_ok_iff,
    run_pure_ok]
  constructor
  · rintro ⟨call, _, ⟨hcarried, rfl⟩, words, _, hanswered, rfl, rfl⟩
    exact ⟨call, hcarried, words, hanswered, rfl⟩
  · rintro ⟨call, hcarried, words, hanswered, rfl⟩
    exact ⟨call, s, ⟨hcarried, rfl⟩, words, s', hanswered, rfl, rfl⟩

/-- **An input that is refused, or whose call fails, changes nothing.** -/
theorem execute_failsClean (content : List UInt8) :
    FailsClean (execute b cfg m getAccountId message content) :=
  failsClean_bind silent_ofExcept fun call =>
    failsClean_bind_neverFails (perform_failsClean call) fun _ => neverFails_pure _

/-- The words of an output are read back. -/
theorem wordAt_output (hwords : ∀ word ∈ words, word < 2 ^ 256) (i : ℕ) :
    Abi.wordAt (output words) (32 * i) = words[i]? := by
  by_cases hi : i < words.length
  · have hsplit : words = words.take i ++ (words[i] :: words.drop (i + 1)) := by
      rw [List.cons_getElem_drop_succ, List.take_append_drop]
    have houtput : output words = output (words.take i)
        ++ (toBytes 32 words[i] ++ output (words.drop (i + 1))) := by
      conv_lhs => rw [hsplit]
      rw [output, List.map_append, List.flatten_append, List.map_cons, List.flatten_cons]
      rfl
    have hbefore : 32 * i = (output (words.take i)).length := by
      rw [output, length_words, List.length_take_of_le (Nat.le_of_lt hi)]
    rw [Abi.wordAt_of_eq houtput hbefore (hwords _ (List.getElem_mem hi)),
      List.getElem?_eq_getElem hi]
  · have hlength : ¬ 32 * i + 32 ≤ (output words).length := by
      rw [output, length_words]
      omega
    rw [Abi.wordAt, if_neg hlength, List.getElem?_eq_none (Nat.le_of_not_lt hi)]

/-- What the exchange answers fits words. -/
theorem Call.Answered.lt (hs : s.PoolsFit)
    (hamounts : ∀ n ∈ call.amounts, n ≤ Balance.maxValue)
    (h : call.Answered cfg m s s' words) : ∀ word ∈ words, word < 2 ^ 256 := by
  have hbalance : ∀ n, n ≤ Balance.maxValue → n < 2 ^ 256 := by
    intro n hn
    unfold Balance.maxValue at hn
    omega
  cases call with
  | getLiquidityPool x y =>
      obtain ⟨rfl, -⟩ := h
      obtain ⟨h0, h1⟩ := hs.getLiquidity_le x y
      intro word hword
      rcases List.mem_cons.mp hword with rfl | hword
      · exact hbalance _ h0
      · rw [List.mem_singleton.mp hword]
        exact hbalance _ h1
  | getLiquidityTokenAddress x y =>
      obtain ⟨address, -, rfl, -⟩ := h
      intro word hword
      rw [List.mem_singleton.mp hword]
      exact lt_of_lt_of_le address.isLt (Nat.pow_le_pow_right (by decide) (by decide))
  | getSwapTargetAmount path n =>
      obtain ⟨x, hx, rfl, -⟩ := h
      intro word hword
      rw [List.mem_singleton.mp hword]
      exact hbalance x (Dex.getSwapTargetAmount_le (hamounts n (by simp [Call.amounts])) hx)
  | getSwapSupplyAmount path n =>
      obtain ⟨x, hx, rfl, -⟩ := h
      intro word hword
      rw [List.mem_singleton.mp hword]
      exact hbalance x (Dex.getSwapSupplyAmount_le (hamounts n (by simp [Call.amounts])) hx)
  | swapWithExactSupply who path n limit =>
      obtain ⟨x, hx, rfl⟩ := h
      obtain ⟨amounts, hquote, rfl, -, -⟩ := Dex.doSwapWithExactSupply_ok_iff.mp hx
      have hquoted : Dex.getSwapTargetAmount cfg.tradingPathLimit s path n none
          = some (amounts.getLastD 0) := by
        rw [Dex.getSwapTargetAmount, hquote]
        rfl
      intro word hword
      rw [List.mem_singleton.mp hword]
      exact hbalance _ (Dex.getSwapTargetAmount_le (hamounts n (by simp [Call.amounts])) hquoted)
  | swapWithExactTarget who path n limit =>
      obtain ⟨x, hx, rfl⟩ := h
      obtain ⟨amounts, hquote, rfl, -, -⟩ := Dex.doSwapWithExactTarget_ok_iff.mp hx
      have hquoted : Dex.getSwapSupplyAmount cfg.tradingPathLimit s path n none
          = some (amounts.headD 0) := by
        rw [Dex.getSwapSupplyAmount, hquote]
        rfl
      intro word hword
      rw [List.mem_singleton.mp hword]
      exact hbalance _ (Dex.getSwapSupplyAmount_le (hamounts n (by simp [Call.amounts])) hquoted)
  | addLiquidity who x y n₀ n₁ n₂ | removeLiquidity who x y n₀ n₁ n₂ =>
      obtain ⟨-, rfl⟩ := h
      intro word hword
      exact absurd hword List.not_mem_nil

/-- **A contract that asks with call data gets the answer of the exchange**: the call goes through
exactly if the exchange answers it, with one word for each number of the answer, and changes nothing
otherwise. -/
theorem execute_callData {currency : CurrencyId → EvmAddress} {account : A → EvmAddress}
    (hs : s.PoolsFit)
    (hcall : call.Encodable currency account (mappings m getAccountId)) (rest : List UInt8)
    (hcontent :
      content = callData call.action.intoU32 (call.words currency account) ++ rest)
    (hbounded : Bounded b content) :
    (∀ answer gas s', (execute b cfg m getAccountId message content).run s
        = .ok (answer, gas) s' →
      gas = 0 ∧ ∃ words, call.Answered cfg m s s' words ∧ answer.length = 32 * words.length ∧
        ∀ i, Abi.wordAt answer (32 * i) = words[i]?) ∧
    ∀ e s', (execute b cfg m getAccountId message content).run s = .error e s' →
      s' = s ∧ e ≠ .panic ∧ ∀ s'' words, ¬ call.Answered cfg m s s'' words := by
  subst hcontent
  have hdecode := decode_callData hcall rfl hbounded
  have hexecute : execute b cfg m getAccountId message
      (callData call.action.intoU32 (call.words currency account) ++ rest)
      = perform cfg m message call >>= fun words => pure (output words, 0) := by
    rw [execute, hdecode]
    rfl
  rw [hexecute]
  constructor
  · intro answer gas s' hrun
    obtain ⟨words, _, hperform, hanswer⟩ := run_bind_ok.mp hrun
    obtain ⟨heq, rfl⟩ := run_pure_ok.mp hanswer
    obtain ⟨rfl, rfl⟩ := Prod.mk.inj heq
    have hanswered := perform_ok_iff.mp hperform
    refine ⟨rfl, words, hanswered, ?_, wordAt_output (hanswered.lt hs hcall.amounts)⟩
    rw [output, length_words]
  · intro e s' hrun
    rcases run_bind_error.mp hrun with herror | ⟨words, _, -, hpure⟩
    · refine ⟨perform_failsClean call herror, perform_ne_panic herror, ?_⟩
      intro s'' words hanswered
      rw [perform_ok_iff.mpr hanswered] at herror
      cases herror
    · exact (run_pure_error.mp hpure).elim

/-! ## A question of a contract -/

/-- The exchange with a pool of the two currencies of the question. -/
def samplePool : Dex.State ℕ Unit :=
  Machine.run (Dex.step Dex.sampleConfig) Dex.sampleState
    [.enableTradingPair .root (.Token .DNAR) (.Token .USDJ),
      .addLiquidity (.signed Dex.sampleSigner) (.Token .DNAR) (.Token .USDJ) 100 200 0 false]

theorem samplePool_poolsFit : samplePool.PoolsFit := by
  intro p
  by_cases hp : p = TradingPair.new (.Token .DNAR) (.Token .USDJ)
  · rw [hp]
    decide +kernel
  · have hkeys : samplePool.liquidityPool.keys
        = [TradingPair.new (.Token .DNAR) (.Token .USDJ)] := by
      decide +kernel
    have hnone : samplePool.liquidityPool.lookup p = none := by
      rw [AList.lookup_eq_none, AList.mem_keys, hkeys]
      exact fun h => hp (List.mem_singleton.mp h)
    rw [Dex.State.pool, StorageMap.get, hnone]
    decide

/-- The contract reads 19. -/
theorem execute_callData_sample :
    ∃ answer, (execute wasmRelease Dex.sampleConfig ∅ BitVec.toNat (fun _ => "refused")
        sampleQuestionData).run samplePool = .ok (answer, 0) samplePool ∧
      Abi.wordAt answer 0 = some 19 := by
  have hquote : Dex.getSwapTargetAmount Dex.sampleConfig.tradingPathLimit samplePool
      [.Token .USDJ, .Token .DNAR] 50 none = some 19 := by
    decide +kernel
  have hcontent : sampleQuestionData = callData sampleQuestion.action.intoU32
      (sampleQuestion.words sampleCurrency (BitVec.ofNat 160)) ++ [] := by
    rw [List.append_nil, sampleQuestionData]
  obtain ⟨hok, herror⟩ := @execute_callData ℕ Unit _ wasmRelease Dex.sampleConfig ∅ BitVec.toNat
    (fun _ => "refused") samplePool sampleQuestionData sampleQuestion sampleCurrency
    (BitVec.ofNat 160) samplePool_poolsFit sampleQuestion_encodable [] hcontent
    sampleQuestionData_bounded
  cases hrun : (execute wasmRelease Dex.sampleConfig ∅ BitVec.toNat (fun _ => "refused")
      sampleQuestionData).run samplePool with
  | ok answer s' =>
      obtain ⟨answer, gas⟩ := answer
      obtain ⟨rfl, words, ⟨n, hn, rfl, rfl⟩, -, hread⟩ := hok answer gas s' hrun
      rw [hquote] at hn
      cases hn
      exact ⟨answer, rfl, hread 0⟩
  | error e s' =>
      obtain ⟨-, -, hnone⟩ := herror e s' hrun
      exact absurd ⟨19, hquote, rfl, rfl⟩ (hnone samplePool [19])

end Contracts

/-! ## Runs with contracts -/

section Runs

variable (b : Build) (cfg : Dex.Config A E) (message : Dex.DispatchError → String)

/-- What the exchange is called for: a dispatched call, or the input of a contract. The currencies
and the accounts that addresses stand for may be others each time, but no address stands for the
account of the exchange. -/
inductive Event (cfg : Dex.Config A E)
  | dispatched (call : Dex.Call cfg)
  | contract (m : EvmManager.CurrencyIdMap) (getAccountId : EvmAddress → Dex.Signer cfg)
      (content : List UInt8)

/-- The state after an event. What a failed call of a contract did is taken back. -/
def eventStep (s : Dex.State A E) : Event cfg → Dex.State A E
  | .dispatched call => Dex.step cfg s call
  | .contract m getAccountId content =>
      commit (transactional
        (execute b cfg m (fun address => (getAccountId address).1) message content)) s

/-- The calls that a contract can make, which an account signs. -/
def Tradeable {cfg : Dex.Config A E} : Dex.Call cfg → Prop
  | .swapWithExactSupply (.signed _) _ _ _ => True
  | .swapWithExactTarget (.signed _) _ _ _ => True
  | .addLiquidity (.signed _) _ _ _ _ _ depositIncrementShare => depositIncrementShare = false
  | .removeLiquidity (.signed _) _ _ _ _ _ byWithdraw => byWithdraw = false
  | _ => False

variable {b cfg message} {s s' : Dex.State A E}

open Dex in
/-- The signed call that does what a contract's swap does. -/
theorem step_of_swapWithExactSupply {who : Signer cfg} {path : List CurrencyId} {n m x : ℕ}
    (h : (doSwapWithExactSupply cfg who.1 path n m none).run s = .ok x s') :
    Dex.step cfg s (.swapWithExactSupply (.signed who) path n m) = s' := by
  refine commit_of_ok (run_transactional_ok.mpr ?_) (a := ())
  exact run_bind_ok.mpr ⟨who.1, s, rfl, run_bind_ok.mpr ⟨x, s', h, rfl⟩⟩

open Dex in
theorem step_of_swapWithExactTarget {who : Signer cfg} {path : List CurrencyId} {n m x : ℕ}
    (h : (doSwapWithExactTarget cfg who.1 path n m none).run s = .ok x s') :
    Dex.step cfg s (.swapWithExactTarget (.signed who) path n m) = s' := by
  refine commit_of_ok (run_transactional_ok.mpr ?_) (a := ())
  exact run_bind_ok.mpr ⟨who.1, s, rfl, run_bind_ok.mpr ⟨x, s', h, rfl⟩⟩

open Dex in
theorem step_of_removeLiquidity {who : Signer cfg} {c c' : CurrencyId} {n x y : ℕ}
    (h : (doRemoveLiquidity cfg who.1 c c' n x y false).run s = .ok () s') :
    Dex.step cfg s (.removeLiquidity (.signed who) c c' n x y false) = s' := by
  refine commit_of_ok (run_transactional_ok.mpr ?_) (a := ())
  exact run_bind_ok.mpr ⟨who.1, s, rfl, h⟩

/-- Two currencies whose pair has a share currency can be pooled. -/
theorem fromTokenCurrencyIds_of_share {c c' share : CurrencyId}
    (h : (TradingPair.new c c').getDexShareCurrencyId = some share) :
    TradingPair.fromTokenCurrencyIds c c' = some (TradingPair.new c c') := by
  have hpooled : ∀ {x : CurrencyId} {d : DexShare}, x.toDexShare = some d →
      (x.isTokenCurrencyId || x.isErc20CurrencyId) = true := by
    intro x d hx
    cases x <;> first | rfl | cases hx
  simp only [TradingPair.getDexShareCurrencyId, CurrencyId.joinDexShareCurrencyId,
    Option.bind_eq_bind, Option.bind_eq_some_iff] at h
  obtain ⟨d, hd, d', hd', -⟩ := h
  have h0 := hpooled hd
  have h1 := hpooled hd'
  unfold TradingPair.fromTokenCurrencyIds
  rw [TradingPair.new_comm c' c]
  rcases TradingPair.sides_new c c' with ⟨h0', h1'⟩ | ⟨h0', h1'⟩
  · rw [h0'] at h0
    rw [h1'] at h1
    rw [h0, h1]
    rfl
  · rw [h0'] at h0
    rw [h1'] at h1
    rw [h0, h1]
    rfl

open Dex in
/-- Liquidity is added to an enabled pair alone, so no contract contributes to a pending one. -/
theorem step_of_addLiquidity {who : Signer cfg} {c c' : CurrencyId} {x y z : ℕ}
    (h : (doAddLiquidity cfg who.1 c c' x y z false).run s = .ok () s') :
    Dex.step cfg s (.addLiquidity (.signed who) c c' x y z false) = s' := by
  have hrun := h
  simp only [doAddLiquidity, run_bind_ok, run_okOr_ok, run_get_ok, run_ensure_ok] at hrun
  obtain ⟨share, _, ⟨hshare, rfl⟩, t, _, ⟨rfl, rfl⟩, -, _, ⟨henabled, -⟩, -⟩ := hrun
  refine commit_of_ok (run_transactional_ok.mpr ?_) (a := ())
  refine run_bind_ok.mpr ⟨who.1, s, rfl, ?_⟩
  refine run_bind_ok.mpr ⟨TradingPair.new c c', s,
    run_okOr_ok.mpr ⟨fromTokenCurrencyIds_of_share hshare, rfl⟩, ?_⟩
  refine run_bind_ok.mpr ⟨s, s, rfl, ?_⟩
  rw [henabled]
  exact h

omit [DecidableEq A] in
/-- The account of a call that an input asks for is one that an address stands for. -/
theorem signer_of_lowAccountAt {m : EvmManager.CurrencyIdMap}
    {getAccountId : EvmAddress → Dex.Signer cfg} {content : List UInt8} {index : ℕ} {who : A}
    (h : lowAccountAt (mappings m fun address => (getAccountId address).1) content index
      = some who) : ∃ signer : Dex.Signer cfg, signer.1 = who := by
  obtain ⟨word, -, rfl⟩ := Option.map_eq_some_iff.mp h
  exact ⟨getAccountId _, rfl⟩

/-- **What a contract does, an account can do by a call that it signs**, or it is nothing. -/
theorem contract_reaches {m : EvmManager.CurrencyIdMap}
    {getAccountId : EvmAddress → Dex.Signer cfg} {content : List UInt8}
    (hbounded : Bounded b content) :
    Machine.Reaches (Dex.step cfg) Tradeable s
      (eventStep b cfg message s (.contract m getAccountId content)) := by
  cases hrun : (execute b cfg m (fun address => (getAccountId address).1) message content).run s
    with
  | error e s' =>
      have hstep : eventStep b cfg message s (.contract m getAccountId content) = s :=
        commit_of_error (run_transactional_error.mpr ⟨rfl, s', hrun⟩)
      exact .of_eq hstep
  | ok answer s' =>
      have hstep : eventStep b cfg message s (.contract m getAccountId content) = s' :=
        commit_of_ok (run_transactional_ok.mpr hrun)
      rw [hstep]
      obtain ⟨call, ⟨-, hargued⟩, words, hanswered, -⟩ := (execute_ok_iff hbounded).mp hrun
      cases call with
      | getLiquidityPool x y => exact .of_eq hanswered.2
      | getLiquidityTokenAddress x y =>
          obtain ⟨address, -, -, hs⟩ := hanswered
          exact .of_eq hs
      | getSwapTargetAmount path n | getSwapSupplyAmount path n =>
          obtain ⟨x, -, -, hs⟩ := hanswered
          exact .of_eq hs
      | swapWithExactSupply who path n limit =>
          obtain ⟨signer, rfl⟩ := signer_of_lowAccountAt hargued.1
          obtain ⟨x, hswap, -⟩ := hanswered
          rw [← step_of_swapWithExactSupply hswap]
          exact .single (by trivial) s
      | swapWithExactTarget who path n limit =>
          obtain ⟨signer, rfl⟩ := signer_of_lowAccountAt hargued.1
          obtain ⟨x, hswap, -⟩ := hanswered
          rw [← step_of_swapWithExactTarget hswap]
          exact .single (by trivial) s
      | addLiquidity who x y n₀ n₁ n₂ =>
          obtain ⟨signer, rfl⟩ := signer_of_lowAccountAt hargued.1
          rw [← step_of_addLiquidity hanswered.1]
          exact .single (by rfl) s
      | removeLiquidity who x y n₀ n₁ n₂ =>
          obtain ⟨signer, rfl⟩ := signer_of_lowAccountAt hargued.1
          rw [← step_of_removeLiquidity hanswered.1]
          exact .single (by rfl) s

/-- **A run with contracts is a run without.** Whatever inputs contracts give, and in whatever order
they come between dispatched calls, the exchange ends as in a run of dispatched calls, of which all
that were not dispatched are trades and changes of liquidity that an account signs. -/
theorem run_refines (s : Dex.State A E) (events : List (Event cfg))
    (hbounded : ∀ m getAccountId content,
      Event.contract m getAccountId content ∈ events → Bounded b content) :
    Machine.Reaches (Dex.step cfg) (fun call => .dispatched call ∈ events ∨ Tradeable call) s
      (Machine.run (eventStep b cfg message) s events) := by
  refine Machine.Reaches.foldl_map (fun s => s) (fun t event hevent => ?_) s
  cases event with
  | dispatched call => exact .single (.inl hevent) t
  | contract m getAccountId content =>
      exact (contract_reaches (hbounded m getAccountId content hevent)).mono fun _ h => .inr h

/-- A contract swaps 50 USDJ of the account 1. -/
def sampleSwap : Call ℕ := .swapWithExactSupply 1 [.Token .USDJ, .Token .DNAR] 50 1

def sampleSwapData : List UInt8 :=
  callData sampleSwap.action.intoU32 (sampleSwap.words sampleCurrency (BitVec.ofNat 160))

theorem sampleSwapData_bounded : Bounded wasmRelease sampleSwapData :=
  bounded_of_lt (by decide +kernel)

/-- A pair is enabled and supplied, and a contract asks for a price and swaps at it. -/
def sampleEvents : List (Event Dex.sampleConfig) :=
  [.dispatched (.enableTradingPair .root (.Token .DNAR) (.Token .USDJ)),
    .dispatched (.addLiquidity (.signed Dex.sampleSigner) (.Token .DNAR) (.Token .USDJ) 100 200 0
      false),
    .contract ∅ (fun _ => Dex.sampleSigner) sampleQuestionData,
    .contract ∅ (fun _ => Dex.sampleSigner) sampleSwapData]

/-- The pool gains the 50 USDJ and pays 19 DNAR for them, as a signed swap does. -/
theorem run_refines_sample :
    Machine.Reaches (Dex.step Dex.sampleConfig)
      (fun call => .dispatched call ∈ sampleEvents ∨ Tradeable call) Dex.sampleState
      (Machine.run (eventStep wasmRelease Dex.sampleConfig fun _ => "refused") Dex.sampleState
        sampleEvents) ∧
    (Machine.run (eventStep wasmRelease Dex.sampleConfig fun _ => "refused") Dex.sampleState
      sampleEvents).pool (TradingPair.new (.Token .DNAR) (.Token .USDJ)) = (81, 250) := by
  refine ⟨run_refines Dex.sampleState sampleEvents ?_, by decide +kernel⟩
  intro m getAccountId content hevent
  simp only [sampleEvents, List.mem_cons, List.not_mem_nil, or_false, reduceCtorEq, false_or,
    Event.contract.injEq] at hevent
  obtain ⟨-, -, rfl⟩ | ⟨-, -, rfl⟩ := hevent
  · exact sampleQuestionData_bounded
  · exact sampleSwapData_bounded

end Runs

end DexPrecompile

end Setheum.Evm
