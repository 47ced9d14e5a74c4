import Setheum.Dex.Calls
import Setheum.Evm.Arguments

/-!
# The precompile of the exchange

A system contract asks the exchange for a pool, for the amounts of a swap, or to swap and to add or
remove liquidity for an account. The path of a swap is an array: the input has its length, and then
a word for each currency.

* `decode_callData` — the call data of a call are read as that call.
* `decode_outcome` — an input is read as the call that it asks for, or asks for none and is refused.
-/

set_option autoImplicit false

namespace Setheum.Evm

namespace DexPrecompile

open Checked BigEndian InputT

/-- `IntoPrimitive`. -/
def Action.intoU32 : Action → ℕ
  | .GetLiquidityPool => 0xf4f31ede
  | .GetLiquidityTokenAddress => 0xffd73c4a
  | .GetSwapTargetAmount => 0x4d60beb1
  | .GetSwapSupplyAmount => 0xdbcd19a2
  | .SwapWithExactSupply => 0x579baa18
  | .SwapWithExactTarget => 0x9782ac81
  | .AddLiquidity => 0x67088d59
  | .RemoveLiquidity => 0x35315332

theorem Action.intoU32_lt (action : Action) : action.intoU32 < 2 ^ 32 := by
  cases action <;> decide

theorem Action.tryFrom_intoU32 (action : Action) : tryFrom action.intoU32 = some action := by
  cases action <;> rfl

/-- A function of the exchange with its arguments. -/
inductive Call (A : Type)
  | getLiquidityPool (currencyIdA currencyIdB : CurrencyId)
  | getLiquidityTokenAddress (currencyIdA currencyIdB : CurrencyId)
  | getSwapTargetAmount (path : List CurrencyId) (supplyAmount : ℕ)
  | getSwapSupplyAmount (path : List CurrencyId) (targetAmount : ℕ)
  | swapWithExactSupply (who : A) (path : List CurrencyId) (supplyAmount minTargetAmount : ℕ)
  | swapWithExactTarget (who : A) (path : List CurrencyId) (targetAmount maxSupplyAmount : ℕ)
  | addLiquidity (who : A) (currencyIdA currencyIdB : CurrencyId)
      (maxAmountA maxAmountB minShareIncrement : ℕ)
  | removeLiquidity (who : A) (currencyIdA currencyIdB : CurrencyId)
      (removeShare minWithdrawnA minWithdrawnB : ℕ)
  deriving DecidableEq, Repr

variable {A : Type}

def Call.action : Call A → Action
  | .getLiquidityPool .. => .GetLiquidityPool
  | .getLiquidityTokenAddress .. => .GetLiquidityTokenAddress
  | .getSwapTargetAmount .. => .GetSwapTargetAmount
  | .getSwapSupplyAmount .. => .GetSwapSupplyAmount
  | .swapWithExactSupply .. => .SwapWithExactSupply
  | .swapWithExactTarget .. => .SwapWithExactTarget
  | .addLiquidity .. => .AddLiquidity
  | .removeLiquidity .. => .RemoveLiquidity

/-! ## Reading a call -/

section Decoding

variable (b : Build) (maps : Mappings Action A) (content : List UInt8)

/-- The loop that reads a path: `left` more currencies, the next of them at index `first + i`. The
index is a number of 32 bits. -/
def pathAt (first : ℕ) : ℕ → ℕ → Checked String (List CurrencyId)
  | 0, _ => pure []
  | left + 1, i => do
      let index ← b.add (2 ^ 32) first i
      let currencyId ← currencyIdAt b content maps index
      let path ← pathAt first left (i + 1)
      pure (currencyId :: path)

/-- The arguments of a question about a pool. -/
def poolArguments (call : CurrencyId → CurrencyId → Call A) : Checked String (Call A) := do
  let currencyIdA ← currencyIdAt b content maps 1
  let currencyIdB ← currencyIdAt b content maps 2
  pure (call currencyIdA currencyIdB)

/-- The arguments of a question about a swap. The first word is the offset of the array, which is
not read. -/
def quoteArguments (call : List CurrencyId → ℕ → Call A) : Checked String (Call A) := do
  let amount ← balanceAt b content 2
  let pathLen ← u32At b content 3
  let path ← pathAt b maps content 4 pathLen 0
  pure (call path amount)

/-- The arguments of a swap, of which the second is the offset of the array. -/
def swapArguments (call : A → List CurrencyId → ℕ → ℕ → Call A) : Checked String (Call A) := do
  let who ← accountIdAt b content maps 1
  let amount ← balanceAt b content 3
  let limit ← balanceAt b content 4
  let pathLen ← u32At b content 5
  let path ← pathAt b maps content 6 pathLen 0
  pure (call who path amount limit)

/-- The arguments of a change of liquidity. -/
def liquidityArguments (call : A → CurrencyId → CurrencyId → ℕ → ℕ → ℕ → Call A) :
    Checked String (Call A) := do
  let who ← accountIdAt b content maps 1
  let currencyIdA ← currencyIdAt b content maps 2
  let currencyIdB ← currencyIdAt b content maps 3
  let amount0 ← balanceAt b content 4
  let amount1 ← balanceAt b content 5
  let amount2 ← balanceAt b content 6
  pure (call who currencyIdA currencyIdB amount0 amount1 amount2)

def arguments : Action → Checked String (Call A)
  | .GetLiquidityPool => poolArguments b maps content .getLiquidityPool
  | .GetLiquidityTokenAddress => poolArguments b maps content .getLiquidityTokenAddress
  | .GetSwapTargetAmount => quoteArguments b maps content .getSwapTargetAmount
  | .GetSwapSupplyAmount => quoteArguments b maps content .getSwapSupplyAmount
  | .SwapWithExactSupply => swapArguments b maps content .swapWithExactSupply
  | .SwapWithExactTarget => swapArguments b maps content .swapWithExactTarget
  | .AddLiquidity => liquidityArguments b maps content .addLiquidity
  | .RemoveLiquidity => liquidityArguments b maps content .removeLiquidity

def decode : Checked String (Call A) := do
  let action ← InputT.action b content maps
  arguments b maps content action

end Decoding

/-- The selectors, accounts and currencies of the precompile. -/
def mappings (m : EvmManager.CurrencyIdMap) (getAccountId : EvmAddress → A) :
    Mappings Action A where
  tryFrom := Action.tryFrom
  getAccountId := getAccountId
  decodeEvmAddress := m.decodeEvmAddress

/-! ## What an input asks for -/

section Meaning

variable (maps : Mappings Action A) (content : List UInt8)

/-- The words from an index on stand for the currencies of a path. -/
def PathAt : ℕ → List CurrencyId → Prop
  | _, [] => True
  | index, currencyId :: path =>
      lowCurrencyAt maps content index = some currencyId ∧ PathAt (index + 1) path

/-- The words of the input are the arguments of the call, where only the bytes that fit the type of
an argument count. -/
def Call.Argued : Call A → Prop
  | .getLiquidityPool currencyIdA currencyIdB
  | .getLiquidityTokenAddress currencyIdA currencyIdB =>
      lowCurrencyAt maps content 1 = some currencyIdA ∧
        lowCurrencyAt maps content 2 = some currencyIdB
  | .getSwapTargetAmount path amount
  | .getSwapSupplyAmount path amount =>
      lowWordAt content 2 16 = some amount ∧ lowWordAt content 3 4 = some path.length ∧
        PathAt maps content 4 path
  | .swapWithExactSupply who path amount limit
  | .swapWithExactTarget who path amount limit =>
      lowAccountAt maps content 1 = some who ∧ lowWordAt content 3 16 = some amount ∧
        lowWordAt content 4 16 = some limit ∧ lowWordAt content 5 4 = some path.length ∧
        PathAt maps content 6 path
  | .addLiquidity who currencyIdA currencyIdB x y z
  | .removeLiquidity who currencyIdA currencyIdB x y z =>
      lowAccountAt maps content 1 = some who ∧ lowCurrencyAt maps content 2 = some currencyIdA ∧
        lowCurrencyAt maps content 3 = some currencyIdB ∧ lowWordAt content 4 16 = some x ∧
        lowWordAt content 5 16 = some y ∧ lowWordAt content 6 16 = some z

/-- The input asks for the call. -/
def Call.Carried (call : Call A) : Prop :=
  (Input.action content).bind maps.tryFrom = some call.action ∧ call.Argued maps content

/-- An input of at most `2 ^ 37 - 256` bytes that fits memory with as much room: the positions of the
words after it are numbers of the width of a pointer, and their indices of 32 bits. -/
structure Bounded (b : Build) (content : List UInt8) : Prop where
  addressable : content.length + 256 ≤ b.usize
  countable : content.length + 256 ≤ 2 ^ 37

/-- A slice has no more bytes than this on a machine of 32 bits. -/
theorem bounded_of_lt {b : Build} {content : List UInt8} (h : content.length < 2 ^ 31) :
    Bounded b content where
  addressable := by
    have husize := Build.lt_usize (b := b) (n := 2 ^ 32 - 1) (by decide)
    omega
  countable := by omega

end Meaning

/-! ## Paths -/

section Paths

variable {b : Build} {maps : Mappings Action A} {content : List UInt8}
variable {first i left index : ℕ}

/-- A word that stands for a currency is inside the input. -/
theorem length_of_lowCurrencyAt {currencyId : CurrencyId}
    (h : lowCurrencyAt maps content index = some currencyId) :
    36 + 32 * index ≤ content.length := by
  unfold lowCurrencyAt lowAddressAt lowWordAt wordAt argument at h
  split at h
  · omega
  · cases h

/-- No word of a path is further away than the one after the input's last. -/
structure PathPlaced (content : List UInt8) (index : ℕ) : Prop where
  pos : index ≠ 0
  near : 32 * index ≤ content.length + 192

theorem PathPlaced.placed (h : PathPlaced content index) (hbounded : Bounded b content) :
    Placed b index :=
  ⟨h.pos, by have := h.near; have := hbounded.addressable; omega⟩

theorem PathPlaced.add_eq (h : PathPlaced content (first + i)) (hbounded : Bounded b content) :
    (b.add (2 ^ 32) first i : Checked String ℕ) = .ok (first + i) :=
  Build.fit_of_lt (by have := h.near; have := hbounded.countable; omega)

/-- After a currency that is there the next word is placed too. -/
theorem PathPlaced.succ {currencyId : CurrencyId}
    (h : lowCurrencyAt maps content (first + i) = some currencyId) :
    PathPlaced content (first + (i + 1)) := by
  have hlength := length_of_lowCurrencyAt h
  exact ⟨by omega, by omega⟩

theorem pathPlaced_of_le (hpos : index ≠ 0) (hle : index ≤ 6) : PathPlaced content index :=
  ⟨hpos, by omega⟩

theorem pathAt_succ (hbounded : Bounded b content) (hplaced : PathPlaced content (first + i)) :
    pathAt b maps content first (left + 1) i
      = currencyIdAt b content maps (first + i) >>= fun currencyId =>
          pathAt b maps content first left (i + 1) >>= fun path => pure (currencyId :: path) := by
  rw [pathAt, hplaced.add_eq hbounded, ok_bind]

/-- **A path is read exactly if each of its words stands for its currency**, however many there
are said to be. -/
theorem pathAt_ok_iff (hbounded : Bounded b content) {path : List CurrencyId}
    (hplaced : PathPlaced content (first + i)) :
    pathAt b maps content first left i = .ok path ↔
      path.length = left ∧ PathAt maps content (first + i) path := by
  induction left generalizing i path with
  | zero =>
      constructor
      · intro h
        cases h
        exact ⟨rfl, trivial⟩
      · rintro ⟨hlength, -⟩
        rw [List.length_eq_zero_iff.mp hlength]
        rfl
  | succ left ih =>
      rw [pathAt_succ hbounded hplaced]
      constructor
      · intro h
        obtain ⟨currencyId, hcurrency, h⟩ := of_bind_eq_ok h
        obtain ⟨rest, hrest, h⟩ := of_bind_eq_ok h
        cases h
        have hlow := (currencyIdAt_ok_iff (hplaced.placed hbounded)).mp hcurrency
        obtain ⟨rfl, hpath⟩ := (ih (PathPlaced.succ hlow)).mp hrest
        exact ⟨rfl, hlow, hpath⟩
      · rintro ⟨hlength, hpath⟩
        cases path with
        | nil => cases hlength
        | cons currencyId rest =>
            obtain ⟨hlow, hpath⟩ := hpath
            have hrest := (ih (PathPlaced.succ hlow)).mpr ⟨Nat.succ.inj hlength, hpath⟩
            rw [(currencyIdAt_ok_iff (hplaced.placed hbounded)).mpr hlow, ok_bind, hrest]
            rfl

theorem pathAt_refuses (hbounded : Bounded b content)
    (hplaced : PathPlaced content (first + i)) :
    Refuses refusals (pathAt b maps content first left i) := by
  induction left generalizing i with
  | zero => exact ok_refuses []
  | succ left ih =>
      rw [pathAt_succ hbounded hplaced]
      refine (currencyIdAt_refuses (hplaced.placed hbounded)).bind fun currencyId hcurrency => ?_
      have hlow := (currencyIdAt_ok_iff (hplaced.placed hbounded)).mp hcurrency
      exact (ih (PathPlaced.succ hlow)).bind fun path _ => ok_refuses _

end Paths

/-! ## Calls -/

section Calls

variable {b : Build} {maps : Mappings Action A} {content : List UInt8} {action : Action}
  {call : Call A}

theorem placed_of_le {index : ℕ} (hpos : index ≠ 0) (hle : index ≤ 6) : Placed b index :=
  placed_of_lt hpos (by omega)

theorem poolArguments_ok_iff {f : CurrencyId → CurrencyId → Call A} :
    poolArguments b maps content f = .ok call ↔
      ∃ x, lowCurrencyAt maps content 1 = some x ∧ ∃ y, lowCurrencyAt maps content 2 = some y ∧
        f x y = call := by
  have h1 : Placed b 1 := placed_of_le (by decide) (by decide)
  have h2 : Placed b 2 := placed_of_le (by decide) (by decide)
  simp only [poolArguments, bind_eq_ok_iff, currencyIdAt_ok_iff h1, currencyIdAt_ok_iff h2,
    pure_eq_ok_iff]

theorem poolArguments_refuses (f : CurrencyId → CurrencyId → Call A) :
    Refuses refusals (poolArguments b maps content f) := by
  refine (currencyIdAt_refuses (placed_of_le (by decide) (by decide))).bind fun x _ => ?_
  refine (currencyIdAt_refuses (placed_of_le (by decide) (by decide))).bind fun y _ => ?_
  exact ok_refuses _

/-- A path and its length, read one after the other. -/
theorem exists_path_iff {pathLen? : Option ℕ} {index : ℕ} {f : List CurrencyId → Call A} :
    (∃ pathLen, pathLen? = some pathLen ∧
        ∃ path : List CurrencyId, (path.length = pathLen ∧ PathAt maps content index path) ∧
          f path = call) ↔
      ∃ path : List CurrencyId, pathLen? = some path.length ∧ PathAt maps content index path ∧
        f path = call := by
  constructor
  · rintro ⟨pathLen, hlen, path, ⟨rfl, hpath⟩, hcall⟩
    exact ⟨path, hlen, hpath, hcall⟩
  · rintro ⟨path, hlen, hpath, hcall⟩
    exact ⟨path.length, hlen, path, ⟨rfl, hpath⟩, hcall⟩

theorem quoteArguments_ok_iff (hbounded : Bounded b content) {f : List CurrencyId → ℕ → Call A} :
    quoteArguments b maps content f = .ok call ↔
      ∃ amount, lowWordAt content 2 16 = some amount ∧
        ∃ path, lowWordAt content 3 4 = some path.length ∧ PathAt maps content 4 path ∧
          f path amount = call := by
  have h2 : Placed b 2 := placed_of_le (by decide) (by decide)
  have h3 : Placed b 3 := placed_of_le (by decide) (by decide)
  have hpath : PathPlaced content (4 + 0) := pathPlaced_of_le (by decide) (by decide)
  simp only [quoteArguments, bind_eq_ok_iff, balanceAt_ok_iff h2, u32At_ok_iff h3,
    pathAt_ok_iff hbounded hpath, pure_eq_ok_iff]
  exact exists_congr fun amount => and_congr_right fun _ => exists_path_iff

theorem quoteArguments_refuses (hbounded : Bounded b content) (f : List CurrencyId → ℕ → Call A) :
    Refuses refusals (quoteArguments b maps content f) := by
  refine (balanceAt_refuses (placed_of_le (by decide) (by decide))).bind fun amount _ => ?_
  refine (u32At_refuses (placed_of_le (by decide) (by decide))).bind fun pathLen _ => ?_
  refine (pathAt_refuses hbounded (pathPlaced_of_le (by decide) (by decide))).bind fun path _ => ?_
  exact ok_refuses _

theorem swapArguments_ok_iff (hbounded : Bounded b content)
    {f : A → List CurrencyId → ℕ → ℕ → Call A} :
    swapArguments b maps content f = .ok call ↔
      ∃ who, lowAccountAt maps content 1 = some who ∧
        ∃ amount, lowWordAt content 3 16 = some amount ∧
          ∃ limit, lowWordAt content 4 16 = some limit ∧
            ∃ path, lowWordAt content 5 4 = some path.length ∧ PathAt maps content 6 path ∧
              f who path amount limit = call := by
  have h1 : Placed b 1 := placed_of_le (by decide) (by decide)
  have h3 : Placed b 3 := placed_of_le (by decide) (by decide)
  have h4 : Placed b 4 := placed_of_le (by decide) (by decide)
  have h5 : Placed b 5 := placed_of_le (by decide) (by decide)
  have hpath : PathPlaced content (6 + 0) := pathPlaced_of_le (by decide) (by decide)
  simp only [swapArguments, bind_eq_ok_iff, accountIdAt_ok_iff h1, balanceAt_ok_iff h3,
    balanceAt_ok_iff h4, u32At_ok_iff h5, pathAt_ok_iff hbounded hpath, pure_eq_ok_iff]
  refine exists_congr fun who => and_congr_right fun _ => ?_
  refine exists_congr fun amount => and_congr_right fun _ => ?_
  exact exists_congr fun limit => and_congr_right fun _ => exists_path_iff

theorem swapArguments_refuses (hbounded : Bounded b content)
    (f : A → List CurrencyId → ℕ → ℕ → Call A) :
    Refuses refusals (swapArguments b maps content f) := by
  refine (accountIdAt_refuses (placed_of_le (by decide) (by decide))).bind fun who _ => ?_
  refine (balanceAt_refuses (placed_of_le (by decide) (by decide))).bind fun amount _ => ?_
  refine (balanceAt_refuses (placed_of_le (by decide) (by decide))).bind fun limit _ => ?_
  refine (u32At_refuses (placed_of_le (by decide) (by decide))).bind fun pathLen _ => ?_
  refine (pathAt_refuses hbounded (pathPlaced_of_le (by decide) (by decide))).bind fun path _ => ?_
  exact ok_refuses _

theorem liquidityArguments_ok_iff {f : A → CurrencyId → CurrencyId → ℕ → ℕ → ℕ → Call A} :
    liquidityArguments b maps content f = .ok call ↔
      ∃ who, lowAccountAt maps content 1 = some who ∧
        ∃ x, lowCurrencyAt maps content 2 = some x ∧
          ∃ y, lowCurrencyAt maps content 3 = some y ∧
            ∃ amount0, lowWordAt content 4 16 = some amount0 ∧
              ∃ amount1, lowWordAt content 5 16 = some amount1 ∧
                ∃ amount2, lowWordAt content 6 16 = some amount2 ∧
                  f who x y amount0 amount1 amount2 = call := by
  have h1 : Placed b 1 := placed_of_le (by decide) (by decide)
  have h2 : Placed b 2 := placed_of_le (by decide) (by decide)
  have h3 : Placed b 3 := placed_of_le (by decide) (by decide)
  have h4 : Placed b 4 := placed_of_le (by decide) (by decide)
  have h5 : Placed b 5 := placed_of_le (by decide) (by decide)
  have h6 : Placed b 6 := placed_of_le (by decide) (by decide)
  simp only [liquidityArguments, bind_eq_ok_iff, accountIdAt_ok_iff h1, currencyIdAt_ok_iff h2,
    currencyIdAt_ok_iff h3, balanceAt_ok_iff h4, balanceAt_ok_iff h5, balanceAt_ok_iff h6,
    pure_eq_ok_iff]

theorem liquidityArguments_refuses (f : A → CurrencyId → CurrencyId → ℕ → ℕ → ℕ → Call A) :
    Refuses refusals (liquidityArguments b maps content f) := by
  refine (accountIdAt_refuses (placed_of_le (by decide) (by decide))).bind fun who _ => ?_
  refine (currencyIdAt_refuses (placed_of_le (by decide) (by decide))).bind fun x _ => ?_
  refine (currencyIdAt_refuses (placed_of_le (by decide) (by decide))).bind fun y _ => ?_
  refine (balanceAt_refuses (placed_of_le (by decide) (by decide))).bind fun amount0 _ => ?_
  refine (balanceAt_refuses (placed_of_le (by decide) (by decide))).bind fun amount1 _ => ?_
  refine (balanceAt_refuses (placed_of_le (by decide) (by decide))).bind fun amount2 _ => ?_
  exact ok_refuses _

/-- The arguments that are read are those of the input. -/
theorem argued_of_arguments (hbounded : Bounded b content)
    (h : arguments b maps content action = .ok call) :
    call.action = action ∧ call.Argued maps content := by
  cases action with
  | GetLiquidityPool | GetLiquidityTokenAddress =>
      obtain ⟨x, hx, y, hy, rfl⟩ := poolArguments_ok_iff.mp h
      exact ⟨rfl, hx, hy⟩
  | GetSwapTargetAmount | GetSwapSupplyAmount =>
      obtain ⟨amount, hamount, path, hlen, hpath, rfl⟩ := (quoteArguments_ok_iff hbounded).mp h
      exact ⟨rfl, hamount, hlen, hpath⟩
  | SwapWithExactSupply | SwapWithExactTarget =>
      obtain ⟨who, hwho, amount, hamount, limit, hlimit, path, hlen, hpath, rfl⟩ :=
        (swapArguments_ok_iff hbounded).mp h
      exact ⟨rfl, hwho, hamount, hlimit, hlen, hpath⟩
  | AddLiquidity | RemoveLiquidity =>
      obtain ⟨who, hwho, x, hx, y, hy, amount0, h0, amount1, h1, amount2, h2, rfl⟩ :=
        liquidityArguments_ok_iff.mp h
      exact ⟨rfl, hwho, hx, hy, h0, h1, h2⟩

/-- Arguments that the input has are read. -/
theorem arguments_of_argued (hbounded : Bounded b content) (h : call.Argued maps content) :
    arguments b maps content call.action = .ok call := by
  cases call with
  | getLiquidityPool x y | getLiquidityTokenAddress x y =>
      obtain ⟨hx, hy⟩ := h
      exact poolArguments_ok_iff.mpr ⟨x, hx, y, hy, rfl⟩
  | getSwapTargetAmount path amount | getSwapSupplyAmount path amount =>
      obtain ⟨hamount, hlen, hpath⟩ := h
      exact (quoteArguments_ok_iff hbounded).mpr ⟨amount, hamount, path, hlen, hpath, rfl⟩
  | swapWithExactSupply who path amount limit | swapWithExactTarget who path amount limit =>
      obtain ⟨hwho, hamount, hlimit, hlen, hpath⟩ := h
      exact (swapArguments_ok_iff hbounded).mpr
        ⟨who, hwho, amount, hamount, limit, hlimit, path, hlen, hpath, rfl⟩
  | addLiquidity who x y amount0 amount1 amount2
  | removeLiquidity who x y amount0 amount1 amount2 =>
      obtain ⟨hwho, hx, hy, h0, h1, h2⟩ := h
      exact liquidityArguments_ok_iff.mpr
        ⟨who, hwho, x, hx, y, hy, amount0, h0, amount1, h1, amount2, h2, rfl⟩

theorem arguments_refuses (hbounded : Bounded b content) (action : Action) :
    Refuses refusals (arguments b maps content action) := by
  cases action with
  | GetLiquidityPool | GetLiquidityTokenAddress => exact poolArguments_refuses _
  | GetSwapTargetAmount | GetSwapSupplyAmount => exact quoteArguments_refuses hbounded _
  | SwapWithExactSupply | SwapWithExactTarget => exact swapArguments_refuses hbounded _
  | AddLiquidity | RemoveLiquidity => exact liquidityArguments_refuses _

/-- An input is read as a call exactly if it asks for it. -/
theorem decode_eq_ok_iff (hbounded : Bounded b content) :
    decode b maps content = .ok call ↔ call.Carried maps content := by
  rw [decode, bind_eq_ok_iff]
  constructor
  · rintro ⟨action, haction, h⟩
    obtain ⟨rfl, hargued⟩ := argued_of_arguments hbounded h
    exact ⟨action_ok_iff.mp haction, hargued⟩
  · rintro ⟨haction, hargued⟩
    exact ⟨call.action, action_ok_iff.mpr haction, arguments_of_argued hbounded hargued⟩

theorem decode_refuses (hbounded : Bounded b content) :
    Refuses refusals (decode b maps content) :=
  action_refuses.bind fun action _ => arguments_refuses hbounded action

end Calls

/-! ## Call data -/

section Encoding

variable (currency : CurrencyId → EvmAddress) (account : A → EvmAddress)

/-- The words of an address array. -/
def pathWords (path : List CurrencyId) : List ℕ :=
  path.length :: path.map fun currencyId => (currency currencyId).toNat

/-- The arguments of a call in the encoding of contracts, with addresses that stand for currencies
and accounts. An array is its offset, and after all arguments its length and its elements. -/
def Call.words : Call A → List ℕ
  | .getLiquidityPool currencyIdA currencyIdB
  | .getLiquidityTokenAddress currencyIdA currencyIdB =>
      [(currency currencyIdA).toNat, (currency currencyIdB).toNat]
  | .getSwapTargetAmount path amount
  | .getSwapSupplyAmount path amount => [64, amount] ++ pathWords currency path
  | .swapWithExactSupply who path amount limit
  | .swapWithExactTarget who path amount limit =>
      [(account who).toNat, 128, amount, limit] ++ pathWords currency path
  | .addLiquidity who currencyIdA currencyIdB x y z
  | .removeLiquidity who currencyIdA currencyIdB x y z =>
      [(account who).toNat, (currency currencyIdA).toNat, (currency currencyIdB).toNat, x, y, z]

def Call.currencyIds : Call A → List CurrencyId
  | .getLiquidityPool x y | .getLiquidityTokenAddress x y => [x, y]
  | .getSwapTargetAmount path _ | .getSwapSupplyAmount path _ => path
  | .swapWithExactSupply _ path _ _ | .swapWithExactTarget _ path _ _ => path
  | .addLiquidity _ x y _ _ _ | .removeLiquidity _ x y _ _ _ => [x, y]

def Call.amounts : Call A → List ℕ
  | .getLiquidityPool .. | .getLiquidityTokenAddress .. => []
  | .getSwapTargetAmount _ x | .getSwapSupplyAmount _ x => [x]
  | .swapWithExactSupply _ _ x y | .swapWithExactTarget _ _ x y => [x, y]
  | .addLiquidity _ _ _ x y z | .removeLiquidity _ _ _ x y z => [x, y, z]

def Call.who : Call A → Option A
  | .swapWithExactSupply who .. | .swapWithExactTarget who .. => some who
  | .addLiquidity who .. | .removeLiquidity who .. => some who
  | _ => none

variable (maps : Mappings Action A)

/-- The addresses stand for what they are encoded for, the amounts are balances, and the path is no
longer than an array of 32 bits. -/
structure Call.Encodable (call : Call A) : Prop where
  currencyIds : ∀ c ∈ call.currencyIds, maps.decodeEvmAddress (currency c) = some c
  who : ∀ who ∈ call.who, maps.getAccountId (account who) = who
  amounts : ∀ n ∈ call.amounts, n ≤ Balance.maxValue
  path : call.currencyIds.length < 2 ^ 32

variable {currency account maps}
variable {selector i : ℕ} {words : List ℕ} {rest : List UInt8}

theorem lowAddressAt_callData {address : EvmAddress} (hword : words[i]? = some address.toNat) :
    lowAddressAt (callData selector words ++ rest) (i + 1) = some address := by
  have hlt : address.toNat < 256 ^ 20 := address.isLt
  rw [lowAddressAt, lowWordAt_callData hword (by decide) hlt, Option.map_some, BitVec.ofNat_toNat,
    BitVec.setWidth_eq]

theorem lowCurrencyAt_callData {c : CurrencyId} (hword : words[i]? = some (currency c).toNat)
    (hc : maps.decodeEvmAddress (currency c) = some c) :
    lowCurrencyAt maps (callData selector words ++ rest) (i + 1) = some c := by
  rw [lowCurrencyAt, lowAddressAt_callData hword, Option.bind_some, hc]

theorem lowAccountAt_callData {who : A} (hword : words[i]? = some (account who).toNat)
    (hwho : maps.getAccountId (account who) = who) :
    lowAccountAt maps (callData selector words ++ rest) (i + 1) = some who := by
  have hlt : (account who).toNat < 256 ^ 20 := (account who).isLt
  rw [lowAccountAt, lowWordAt_callData hword (by decide) hlt, Option.map_some, BitVec.ofNat_toNat,
    BitVec.setWidth_eq, hwho]

theorem lowBalanceAt_callData {n : ℕ} (hword : words[i]? = some n) (hn : n ≤ Balance.maxValue) :
    lowWordAt (callData selector words ++ rest) (i + 1) 16 = some n :=
  lowWordAt_callData hword (by decide) (by unfold Balance.maxValue at hn; omega)

/-- The elements of an array are the path. -/
theorem pathAt_callData {path : List CurrencyId} (before : List ℕ)
    (hwords : words = before ++ path.map fun c => (currency c).toNat)
    (hpath : ∀ c ∈ path, maps.decodeEvmAddress (currency c) = some c) :
    PathAt maps (callData selector words ++ rest) (before.length + 1) path := by
  induction path generalizing before with
  | nil => trivial
  | cons c path ih =>
      refine ⟨lowCurrencyAt_callData ?_ (hpath c List.mem_cons_self), ?_⟩
      · rw [hwords, List.map_cons, List.getElem?_append_right (Nat.le_refl _), Nat.sub_self]
        rfl
      · have happend : words = (before ++ [(currency c).toNat])
            ++ path.map fun c => (currency c).toNat := by
          rw [hwords, List.map_cons, List.append_assoc, List.singleton_append]
        have hrest := ih _ happend fun c' hc' => hpath c' (List.mem_cons_of_mem c hc')
        rwa [List.length_append, List.length_singleton] at hrest

/-- An array is read as the path, wherever it stands. -/
theorem array_callData {path : List CurrencyId} (before : List ℕ)
    (hwords : words = before ++ pathWords currency path) (hlength : path.length < 2 ^ 32)
    (hpath : ∀ c ∈ path, maps.decodeEvmAddress (currency c) = some c) :
    lowWordAt (callData selector words ++ rest) (before.length + 1) 4 = some path.length ∧
      PathAt maps (callData selector words ++ rest) (before.length + 2) path := by
  constructor
  · refine lowWordAt_callData ?_ (by decide) (by omega)
    rw [hwords, List.getElem?_append_right (Nat.le_refl _), Nat.sub_self]
    rfl
  · have happend : words = (before ++ [path.length])
        ++ path.map fun c => (currency c).toNat := by
      rw [hwords, pathWords, List.append_assoc, List.singleton_append]
    have hrest : PathAt maps (callData selector words ++ rest)
        ((before ++ [path.length]).length + 1) path := pathAt_callData _ happend hpath
    rwa [List.length_append, List.length_singleton] at hrest

theorem Call.Encodable.argued {call : Call A} (h : call.Encodable currency account maps)
    (rest : List UInt8) :
    call.Argued maps (callData call.action.intoU32 (call.words currency account) ++ rest) := by
  obtain ⟨hcurrencies, hwho, hamounts, hlength⟩ := h
  cases call with
  | getLiquidityPool x y | getLiquidityTokenAddress x y =>
      exact ⟨lowCurrencyAt_callData (i := 0) rfl (hcurrencies x (by simp [Call.currencyIds])),
        lowCurrencyAt_callData (i := 1) rfl (hcurrencies y (by simp [Call.currencyIds]))⟩
  | getSwapTargetAmount path amount | getSwapSupplyAmount path amount =>
      exact ⟨lowBalanceAt_callData (i := 1) rfl (hamounts amount (by simp [Call.amounts])),
        array_callData [64, amount] rfl hlength hcurrencies⟩
  | swapWithExactSupply who path amount limit | swapWithExactTarget who path amount limit =>
      exact ⟨lowAccountAt_callData (i := 0) rfl (hwho who rfl),
        lowBalanceAt_callData (i := 2) rfl (hamounts amount (by simp [Call.amounts])),
        lowBalanceAt_callData (i := 3) rfl (hamounts limit (by simp [Call.amounts])),
        array_callData [(account who).toNat, 128, amount, limit] rfl hlength hcurrencies⟩
  | addLiquidity who x y amount0 amount1 amount2
  | removeLiquidity who x y amount0 amount1 amount2 =>
      exact ⟨lowAccountAt_callData (i := 0) rfl (hwho who rfl),
        lowCurrencyAt_callData (i := 1) rfl (hcurrencies x (by simp [Call.currencyIds])),
        lowCurrencyAt_callData (i := 2) rfl (hcurrencies y (by simp [Call.currencyIds])),
        lowBalanceAt_callData (i := 3) rfl (hamounts amount0 (by simp [Call.amounts])),
        lowBalanceAt_callData (i := 4) rfl (hamounts amount1 (by simp [Call.amounts])),
        lowBalanceAt_callData (i := 5) rfl (hamounts amount2 (by simp [Call.amounts]))⟩

/-- The call data of a call ask for it. -/
theorem Call.Encodable.carried {call : Call A} (h : call.Encodable currency account maps)
    (hselector : maps.tryFrom = Action.tryFrom) (rest : List UInt8) :
    call.Carried maps (callData call.action.intoU32 (call.words currency account) ++ rest) := by
  refine ⟨?_, h.argued rest⟩
  rw [action_callData call.action.intoU32_lt, Option.bind_some, hselector,
    Action.tryFrom_intoU32]

/-- The call data of a call are read as it, whatever comes after them. -/
theorem decode_callData {b : Build} {call : Call A} (h : call.Encodable currency account maps)
    (hselector : maps.tryFrom = Action.tryFrom)
    (hbounded : Bounded b (callData call.action.intoU32 (call.words currency account) ++ rest)) :
    decode b maps (callData call.action.intoU32 (call.words currency account) ++ rest)
      = .ok call :=
  (decode_eq_ok_iff hbounded).mpr (h.carried hselector rest)

end Encoding

/-! ## What becomes of an input -/

section Outcome

variable {b : Build} {maps : Mappings Action A} {content : List UInt8}

/-- **What becomes of an input.** However the program was built and whatever the input says, even
of the length of a path, the input is read as the one call that it asks for, or it asks for none and
is refused: nothing overflows and nothing panics. -/
theorem decode_outcome (hbounded : Bounded b content) :
    (∃ call : Call A, decode b maps content = .ok call ∧
      ∀ call' : Call A, call'.Carried maps content ↔ call' = call) ∨
    (∃ e ∈ refusals, decode b maps content = fail e) ∧
      ∀ call : Call A, ¬ call.Carried maps content := by
  cases hdecode : decode b maps content with
  | ok call =>
      refine .inl ⟨call, rfl, fun call' => ?_⟩
      rw [← decode_eq_ok_iff hbounded, hdecode]
      exact ⟨fun h => (Except.ok.inj h).symm, fun h => by rw [h]⟩
  | error failure =>
      obtain ⟨e, he, rfl⟩ := decode_refuses hbounded failure hdecode
      refine .inr ⟨⟨e, he, rfl⟩, fun call hcarried => ?_⟩
      rw [(decode_eq_ok_iff hbounded).mpr hcarried] at hdecode
      cases hdecode

end Outcome

/-- A contract asks what 50 USDJ buy in DNAR. -/
def sampleQuestion : Call ℕ := .getSwapTargetAmount [.Token .USDJ, .Token .DNAR] 50

/-- The addresses of tokens. -/
def sampleCurrency (currencyId : CurrencyId) : EvmAddress := currencyId.toEvmAddress.getD 0

def sampleQuestionData : List UInt8 :=
  callData sampleQuestion.action.intoU32 (sampleQuestion.words sampleCurrency (BitVec.ofNat 160))

theorem sampleQuestion_encodable :
    sampleQuestion.Encodable sampleCurrency (BitVec.ofNat 160) (mappings ∅ BitVec.toNat) where
  currencyIds := by decide +kernel
  who := nofun
  amounts := by decide +kernel
  path := by decide +kernel

theorem sampleQuestionData_bounded : Bounded wasmRelease sampleQuestionData :=
  bounded_of_lt (by decide +kernel)

theorem decode_outcome_sample :
    decode wasmRelease (mappings ∅ BitVec.toNat) sampleQuestionData = .ok sampleQuestion ∧
      ∀ call : Call ℕ, call.Carried (mappings ∅ BitVec.toNat) sampleQuestionData ↔
        call = sampleQuestion := by
  have hdecode : decode wasmRelease (mappings ∅ BitVec.toNat) sampleQuestionData
      = .ok sampleQuestion := by
    decide +kernel
  rcases @decode_outcome ℕ wasmRelease (mappings ∅ BitVec.toNat) sampleQuestionData
    sampleQuestionData_bounded with ⟨call, hcall, honly⟩ | ⟨⟨e, -, he⟩, -⟩
  · rw [hdecode] at hcall
    cases hcall
    exact ⟨hdecode, honly⟩
  · rw [hdecode] at he
    cases he

end DexPrecompile

end Setheum.Evm
