import Setheum.Evm.CurrencyMapping
import Setheum.Evm.ScheduleCall
import Setheum.Evm.Precompiles
import Setheum.Lib.BigEndian
import Setheum.Lib.Checked
import Setheum.Lib.FixedPoint

/-!
# Reading the input of a precompile

The input is the size of the call data in 32 bytes, the selector of an action in 4 and then one
word of 32 bytes for each argument. The accessors read the low bytes of a word, whatever the others
are, and `bytesAt` a range whose length is read from the input itself. Positions are computed in
the width of a pointer.

* `Accessor.denoted` — the value that is there: that of the word, if it is in range.
* `param_answers_iff` — when a function of the bytes at a position answers with their value.
* `read_answers_iff` — exactly when each accessor does.
-/

set_option autoImplicit false

namespace Setheum.Evm

open Checked BigEndian

namespace InputT

def PER_PARAM_BYTES : ℕ := 32
def ACTION_INDEX : ℕ := 0
def BALANCE_BYTES : ℕ := 16
def AMOUNT_BYTES : ℕ := 16
def U64_BYTES : ℕ := 8
def U32_BYTES : ℕ := 4

/-- The conversions that an input is read with. -/
structure Mappings (Action A : Type) where
  tryFrom : ℕ → Option Action
  getAccountId : EvmAddress → A
  decodeEvmAddress : EvmAddress → Option CurrencyId

/-! ## The accessors -/

section Accessors

variable (b : Build) (content : List UInt8)

/-- Where parameter `n` starts and stops. -/
def paramRange (n : ℕ) (len : Option ℕ) : Checked String (ℕ × ℕ) := do
  if n = ACTION_INDEX then
    pure (INPUT_BYTES_LENGTH, INPUT_BYTES_LENGTH + FUNCTION_SELECTOR_LENGTH)
  else
    let offset ← b.mul b.usize PER_PARAM_BYTES (n - 1)
    let start ← b.add b.usize (INPUT_BYTES_LENGTH + FUNCTION_SELECTOR_LENGTH) offset
    let stop ← b.add b.usize start (len.getD PER_PARAM_BYTES)
    pure (start, stop)

def nthParam (n : ℕ) (len : Option ℕ) : Checked String (List UInt8) := do
  let (start, stop) ← paramRange b n len
  ensure (stop ≤ content.length) "invalid input"
  slice content start stop

variable {Action A : Type} (maps : Mappings Action A)

def action : Checked String Action := do
  let param ← nthParam b content ACTION_INDEX none
  ensure (param.length = U32_BYTES) "invalid action"
  okOr (maps.tryFrom (ofBytes param)) "invalid action"

/-- The last `n` bytes of the word at an index. -/
def lowBytes (index n : ℕ) : Checked String (List UInt8) := do
  let param ← nthParam b content index none
  let low ← sliceFrom param (PER_PARAM_BYTES - n)
  copyFromSlice n low

def evmAddressAt (index : ℕ) : Checked String EvmAddress := do
  let address ← lowBytes b content index 20
  pure (BitVec.ofNat 160 (ofBytes address))

def accountIdAt (index : ℕ) : Checked String A := do
  let address ← lowBytes b content index 20
  pure (maps.getAccountId (BitVec.ofNat 160 (ofBytes address)))

def currencyIdAt (index : ℕ) : Checked String CurrencyId := do
  let address ← evmAddressAt b content index
  okOr (maps.decodeEvmAddress address) "invalid currency id"

def balanceAt (index : ℕ) : Checked String ℕ := do
  let balance ← lowBytes b content index BALANCE_BYTES
  pure (ofBytes balance)

/-- `Amount::from_be_bytes`: the number of 128 bits in two's complement. -/
def toAmount (n : ℕ) : ℤ := (BitVec.ofNat 128 n).toInt

def amountAt (index : ℕ) : Checked String ℤ := do
  let amount ← lowBytes b content index AMOUNT_BYTES
  pure (toAmount (ofBytes amount))

def u64At (index : ℕ) : Checked String ℕ := do
  let num ← lowBytes b content index U64_BYTES
  pure (ofBytes num)

def u32At (index : ℕ) : Checked String ℕ := do
  let num ← lowBytes b content index U32_BYTES
  pure (ofBytes num)

def bytesAt (index len : ℕ) : Checked String (List UInt8) := nthParam b content index (some len)

end Accessors

/-! ## What is there -/

/-- The bytes of argument `index`, from 1, if the input has so many. -/
def argument (content : List UInt8) (index len : ℕ) : Option (List UInt8) :=
  if 1 ≤ index ∧ 36 + 32 * (index - 1) + len ≤ content.length then
    some ((content.drop (36 + 32 * (index - 1))).take len)
  else none

theorem length_argument {content param : List UInt8} {index len : ℕ}
    (h : argument content index len = some param) : param.length = len := by
  unfold argument at h
  split at h
  · cases h
    rw [List.length_take, List.length_drop]
    omega
  · cases h

/-- The number that the word of an argument spells. -/
def wordAt (content : List UInt8) (index : ℕ) : Option ℕ :=
  (argument content index 32).map ofBytes

/-- A word in range. -/
def below (size : ℕ) (word : ℕ) : Option ℕ := if word < size then some word else none

/-- The address in a word. -/
def addressOf (word : ℕ) : Option EvmAddress := (below (2 ^ 160) word).map (BitVec.ofNat 160)

/-- The signed number of 128 bits in a word, which is a signed number of 256 bits. -/
def amountOf (word : ℕ) : Option ℤ :=
  let amount := (BitVec.ofNat 256 word).toInt
  if Amount.minValue ≤ amount ∧ amount ≤ Amount.maxValue then some amount else none

/-- An accessor with the index it is asked for. -/
inductive Accessor
  | action
  | accountIdAt (index : ℕ)
  | evmAddressAt (index : ℕ)
  | currencyIdAt (index : ℕ)
  | balanceAt (index : ℕ)
  | amountAt (index : ℕ)
  | u64At (index : ℕ)
  | u32At (index : ℕ)
  | bytesAt (index len : ℕ)
  deriving DecidableEq, Repr

namespace Accessor

/-- What an accessor returns. -/
def Value (Action A : Type) : Accessor → Type
  | .action => Action
  | .accountIdAt _ => A
  | .evmAddressAt _ => EvmAddress
  | .currencyIdAt _ => CurrencyId
  | .balanceAt _ => ℕ
  | .amountAt _ => ℤ
  | .u64At _ => ℕ
  | .u32At _ => ℕ
  | .bytesAt _ _ => List UInt8

variable {Action A : Type} (b : Build) (maps : Mappings Action A) (content : List UInt8)

def read : (a : Accessor) → Checked String (a.Value Action A)
  | .action => InputT.action b content maps
  | .accountIdAt index => InputT.accountIdAt b content maps index
  | .evmAddressAt index => InputT.evmAddressAt b content index
  | .currencyIdAt index => InputT.currencyIdAt b content maps index
  | .balanceAt index => InputT.balanceAt b content index
  | .amountAt index => InputT.amountAt b content index
  | .u64At index => InputT.u64At b content index
  | .u32At index => InputT.u32At b content index
  | .bytesAt index len => InputT.bytesAt b content index len

/-- The value that the input has for an accessor. -/
def denoted : (a : Accessor) → Option (a.Value Action A)
  | .action => (Input.action content).bind maps.tryFrom
  | .accountIdAt index => ((wordAt content index).bind addressOf).map maps.getAccountId
  | .evmAddressAt index => (wordAt content index).bind addressOf
  | .currencyIdAt index =>
      ((wordAt content index).bind addressOf).bind maps.decodeEvmAddress
  | .balanceAt index => (wordAt content index).bind (below (2 ^ 128))
  | .amountAt index => (wordAt content index).bind amountOf
  | .u64At index => (wordAt content index).bind (below (2 ^ 64))
  | .u32At index => (wordAt content index).bind (below (2 ^ 32))
  | .bytesAt index len => argument content index len

end Accessor

/-! ## When the value is read -/

/-- Argument 0 is asked for only where there is no selector. The position of any other either can
be computed, and then the bytes that are there, if any, meet `fits`; or it cannot, and then it
wraps around to a range that the input does not have, or to bytes that are refused. -/
def Located (b : Build) (content : List UInt8) (index len : ℕ) (fits refused : List UInt8 → Prop) :
    Prop :=
  if index = 0 then content.length < 36
  else if 36 + 32 * (index - 1) + len < b.usize then
    ∀ param, argument content index len = some param → fits param
  else
    let start := (36 + 32 * (index - 1)) % b.usize
    let stop := (36 + 32 * (index - 1) + len) % b.usize
    b.overflowChecks = false ∧
      (content.length < stop ∨
        (start ≤ stop ∧ refused ((content.drop start).take (stop - start))))

section Locating

variable {b : Build} {content : List UInt8} {index len : ℕ}

theorem nthParam_of_range {n start stop : ℕ} {len : Option ℕ}
    (h : paramRange b n len = .ok (start, stop)) :
    nthParam b content n len
      = if stop ≤ content.length then slice content start stop else fail "invalid input" := by
  rw [nthParam, h]
  show (ensure (stop ≤ content.length) "invalid input" >>= fun _ => slice content start stop) = _
  unfold ensure
  split
  · rfl
  · rfl

theorem nthParam_zero (len : Option ℕ) :
    nthParam b content 0 len
      = if 36 ≤ content.length then .ok ((content.drop 32).take 4) else fail "invalid input" := by
  have hrange : paramRange b 0 len = .ok (32, 36) := rfl
  rw [nthParam_of_range hrange]
  split
  · rename_i hlength
    exact if_pos ⟨by decide, hlength⟩
  · rfl

/-- The position of an argument in machine arithmetic. -/
theorem paramRange_argument (hindex : index ≠ 0) :
    paramRange b index (some len) =
      (b.mul b.usize 32 (index - 1) >>= fun offset => b.add b.usize 36 offset >>= fun start =>
        b.add b.usize start len >>= fun stop => pure (start, stop)) :=
  if_neg hindex

theorem nthParam_fits (hindex : index ≠ 0) (hfits : 36 + 32 * (index - 1) + len < b.usize) :
    nthParam b content index (some len) = okOr (argument content index len) "invalid input" := by
  have hrange : paramRange b index (some len)
      = .ok (36 + 32 * (index - 1), 36 + 32 * (index - 1) + len) := by
    rw [paramRange_argument hindex]
    unfold Build.mul Build.add
    rw [Build.fit_of_lt (by omega)]
    show (b.fit b.usize (36 + 32 * (index - 1)) >>= fun start => _) = _
    rw [Build.fit_of_lt (by omega)]
    show (b.fit b.usize (36 + 32 * (index - 1) + len) >>= fun stop => _) = _
    rw [Build.fit_of_lt hfits]
    rfl
  rw [nthParam_of_range hrange]
  unfold argument
  by_cases hlength : 36 + 32 * (index - 1) + len ≤ content.length
  · rw [if_pos hlength, if_pos ⟨by omega, hlength⟩, slice, if_pos ⟨by omega, hlength⟩,
      Nat.add_sub_cancel_left]
    rfl
  · rw [if_neg hlength, if_neg fun h => hlength h.2]
    rfl

/-- With overflow checks a position that does not fit is a panic. -/
theorem nthParam_overflows (hindex : index ≠ 0) (hchecks : b.overflowChecks = true)
    (hover : b.usize ≤ 36 + 32 * (index - 1) + len) :
    nthParam b content index (some len) = panicked := by
  have hover' : ∀ n, b.usize ≤ n → (b.fit b.usize n : Checked String ℕ) = panicked := by
    intro n hn
    rw [Build.fit_of_le hn, hchecks]
    rfl
  have hrange : paramRange b index (some len) = panicked := by
    rw [paramRange_argument hindex]
    unfold Build.mul Build.add
    by_cases hmul : 32 * (index - 1) < b.usize
    · rw [Build.fit_of_lt hmul]
      show (b.fit b.usize (36 + 32 * (index - 1)) >>= fun start => _) = _
      by_cases hstart : 36 + 32 * (index - 1) < b.usize
      · rw [Build.fit_of_lt hstart]
        show (b.fit b.usize (36 + 32 * (index - 1) + len) >>= fun stop => _) = _
        rw [hover' _ hover]
        rfl
      · rw [hover' _ (by omega)]
        rfl
    · rw [hover' _ (by omega)]
      rfl
  rw [nthParam, hrange]
  rfl

/-- Without them it wraps around. -/
theorem nthParam_wraps (hindex : index ≠ 0) (hchecks : b.overflowChecks = false) :
    nthParam b content index (some len) =
      let start := (36 + 32 * (index - 1)) % b.usize
      let stop := (36 + 32 * (index - 1) + len) % b.usize
      if stop ≤ content.length then slice content start stop else fail "invalid input" := by
  refine nthParam_of_range ?_
  rw [paramRange_argument hindex]
  unfold Build.mul Build.add
  simp only [Build.fit_of_unchecked hchecks]
  show Except.ok _ = _
  rw [Nat.add_mod_mod, Nat.mod_add_mod]

/-- **When a function of the bytes at a position answers with their value.** It must refuse the four
bytes of the selector. -/
theorem param_answers_iff {α : Type} {f : List UInt8 → Checked String α}
    {g : List UInt8 → Option α} (hcontent : content.length < b.usize)
    (hselector : ∀ param : List UInt8, param.length = 4 → ¬ Answers (f param) none) :
    Answers (nthParam b content index (some len) >>= f) ((argument content index len).bind g) ↔
      Located b content index len (fun param => Answers (f param) (g param))
        (fun param => Answers (f param) none) := by
  unfold Located
  by_cases hindex : index = 0
  · -- the selector stands where argument 0 is asked for
    subst hindex
    have hnone : argument content 0 len = none := if_neg fun h => by omega
    rw [if_pos rfl, nthParam_zero, hnone]
    by_cases hlength : 36 ≤ content.length
    · rw [if_pos hlength]
      refine iff_of_false (hselector _ ?_) (by omega)
      rw [List.length_take, List.length_drop]
      omega
    · rw [if_neg hlength]
      exact iff_of_true ⟨"invalid input", rfl⟩ (by omega)
  · rw [if_neg hindex]
    by_cases hfits : 36 + 32 * (index - 1) + len < b.usize
    · rw [if_pos hfits, nthParam_fits hindex hfits]
      cases hparam : argument content index len with
      | none => exact iff_of_true ⟨"invalid input", rfl⟩ fun _ h => by cases h
      | some param => exact ⟨fun h _ heq => by cases heq; exact h, fun h => h param rfl⟩
    · -- no input is so long that the argument is there
      have hnone : argument content index len = none := if_neg fun h => by omega
      rw [if_neg hfits, hnone]
      cases hchecks : b.overflowChecks with
      | true =>
          rw [nthParam_overflows hindex hchecks (by omega)]
          exact iff_of_false (by rintro ⟨e, he⟩; cases he) (by simp)
      | false =>
          rw [nthParam_wraps hindex hchecks]
          simp only [true_and]
          by_cases hstop : (36 + 32 * (index - 1) + len) % b.usize ≤ content.length
          · rw [if_pos hstop, slice]
            by_cases hstart : (36 + 32 * (index - 1)) % b.usize
                ≤ (36 + 32 * (index - 1) + len) % b.usize
            · rw [if_pos ⟨hstart, hstop⟩]
              exact ⟨fun h => .inr ⟨hstart, h⟩, fun h => (h.resolve_left (by omega)).2⟩
            · rw [if_neg fun h => hstart h.1]
              exact iff_of_false (by rintro ⟨e, he⟩; cases he) (by omega)
          · rw [if_neg hstop]
            exact iff_of_true ⟨"invalid input", rfl⟩ (.inl (by omega))

/-- Only bytes of the length that is asked for matter. -/
theorem Located.congr {fits fits' refused refused' : List UInt8 → Prop} (hlen : len < b.usize)
    (hfits : ∀ param : List UInt8, param.length = len → (fits param ↔ fits' param))
    (hrefused : ∀ param : List UInt8, param.length = len → (refused param ↔ refused' param)) :
    Located b content index len fits refused ↔ Located b content index len fits' refused' := by
  unfold Located
  by_cases hindex : index = 0
  · rw [if_pos hindex, if_pos hindex]
  · rw [if_neg hindex, if_neg hindex]
    by_cases hplace : 36 + 32 * (index - 1) + len < b.usize
    · rw [if_pos hplace, if_pos hplace]
      exact forall_congr' fun param => forall_congr' fun hparam =>
        hfits param (length_argument hparam)
    · rw [if_neg hplace, if_neg hplace]
      dsimp only
      refine and_congr_right fun _ => ?_
      by_cases hshort : content.length < (36 + 32 * (index - 1) + len) % b.usize
      · simp [hshort]
      · simp only [hshort, false_or]
        refine and_congr_right fun hle => hrefused _ ?_
        have hstart := Nat.mod_lt (36 + 32 * (index - 1)) b.usize_pos
        have hstop : (36 + 32 * (index - 1) + len) % b.usize
            = ((36 + 32 * (index - 1)) % b.usize + len) % b.usize := (Nat.mod_add_mod ..).symm
        rw [List.length_take, List.length_drop]
        generalize (36 + 32 * (index - 1)) % b.usize = start at *
        rw [hstop] at hle hshort ⊢
        by_cases hwrap : start + len < b.usize
        · rw [Nat.mod_eq_of_lt hwrap] at hle hshort ⊢
          omega
        · rw [Nat.mod_eq_sub_mod (by omega), Nat.mod_eq_of_lt (by omega)] at hle
          omega

end Locating

/-! ## Words -/

section Words

variable {b : Build} {content : List UInt8} {index n : ℕ} {α : Type}

/-- A condition on the word at an index, and one on the word that is found where positions wrap
around. -/
def WordLocated (b : Build) (content : List UInt8) (index : ℕ) (inRange refused : ℕ → Prop) :
    Prop :=
  Located b content index 32 (fun param => inRange (ofBytes param))
    (fun param => refused (ofBytes param))

/-- The last bytes of a word are its remainder. -/
theorem ofBytes_drop {bytes : List UInt8} {k : ℕ} (hlength : bytes.length = k + n) :
    ofBytes (bytes.drop k) = ofBytes bytes % 256 ^ n := by
  have hbytes : bytes.drop k = toBytes n (ofBytes bytes) := by
    rw [← drop_toBytes k n, toBytes_ofBytes bytes hlength]
  rw [hbytes, ofBytes_toBytes]

/-- Copying the last bytes of a word does not panic. -/
theorem copy_low {param : List UInt8} (hlength : param.length = 32) (hn : n ≤ 32) :
    (sliceFrom param (32 - n) >>= fun low => copyFromSlice n low : Checked String (List UInt8))
      = .ok (param.drop (32 - n)) := by
  have hdrop : (param.drop (32 - n)).length = n := by
    rw [List.length_drop]
    omega
  have hslice : (sliceFrom param (32 - n) : Checked String _) = .ok (param.drop (32 - n)) :=
    if_pos (by omega)
  rw [hslice, ok_bind]
  exact if_pos hdrop

/-- **When a function of the low bytes of a word answers with the value of the whole word.** -/
theorem word_answers_iff {f : ℕ → Checked String α} {g : ℕ → Option α}
    {inRange refused : ℕ → Prop} (hcontent : content.length < b.usize) (hn : n ≤ 20)
    (hinRange : ∀ word < 2 ^ 256, Answers (f (word % 256 ^ n)) (g word) ↔ inRange word)
    (hrefused : ∀ word, Answers (f (word % 256 ^ n)) none ↔ refused word) :
    Answers (lowBytes b content index n >>= fun low => f (ofBytes low))
        ((wordAt content index).bind g) ↔
      WordLocated b content index inRange refused := by
  let read : List UInt8 → Checked String α := fun param =>
    (sliceFrom param (32 - n) >>= fun low => copyFromSlice n low) >>= fun low => f (ofBytes low)
  have hread : (lowBytes b content index n >>= fun low => f (ofBytes low))
      = nthParam b content index (some 32) >>= read := by
    rw [lowBytes, bind_assoc]
    rfl
  have hword : (wordAt content index).bind g
      = (argument content index 32).bind fun param => g (ofBytes param) := by
    rw [wordAt, Option.bind_map]
    rfl
  have hlow : ∀ param : List UInt8, param.length = 32 →
      read param = f (ofBytes param % 256 ^ n) := by
    intro param hlength
    rw [← ofBytes_drop (k := 32 - n) (by omega)]
    show (sliceFrom param (32 - n) >>= fun low => copyFromSlice n low) >>= _ = _
    rw [copy_low hlength (by omega), ok_bind]
  have hselector : ∀ param : List UInt8, param.length = 4 → ¬ Answers (read param) none := by
    intro param hlength
    have hslice : (sliceFrom param (32 - n) : Checked String (List UInt8)) = panicked :=
      if_neg (by omega)
    simp only [read, hslice]
    exact answers_panicked.not.mpr id
  rw [hread, hword, param_answers_iff hcontent hselector]
  refine Located.congr (Build.lt_usize (by decide)) (fun param hlength => ?_)
    fun param hlength => ?_
  · rw [hlow param hlength]
    refine hinRange _ ?_
    have hlt := ofBytes_lt param
    rwa [hlength] at hlt
  · rw [hlow param hlength]
    exact hrefused _

/-- For a function that never fails. -/
theorem word_ok_iff {v : ℕ → α} {g : ℕ → Option α} {inRange : ℕ → Prop}
    (hcontent : content.length < b.usize) (index : ℕ) (hn : n ≤ 20)
    (hinRange : ∀ word < 2 ^ 256, g word = some (v (word % 256 ^ n)) ↔ inRange word) :
    Answers (lowBytes b content index n >>= fun low => pure (v (ofBytes low)))
        ((wordAt content index).bind g) ↔
      WordLocated b content index inRange fun _ => False :=
  word_answers_iff (f := fun word => pure (v word)) hcontent hn
    (fun word hword => answers_ok.trans (hinRange word hword))
    fun _ => iff_of_false (answers_ok.not.mpr (by simp)) id

end Words

/-! ## The accessors -/

namespace Accessor

variable {Action A : Type}

/-- When the value that is there is read: the word can be located and is in the range of the type.
An address that stands for no currency is refused, in range or not. -/
def Exact (b : Build) (maps : Mappings Action A) (content : List UInt8) : Accessor → Prop
  | .action => True
  | .accountIdAt index => WordLocated b content index (· < 2 ^ 160) fun _ => False
  | .evmAddressAt index => WordLocated b content index (· < 2 ^ 160) fun _ => False
  | .currencyIdAt index =>
      WordLocated b content index
        (fun word => word < 2 ^ 160 ∨ maps.decodeEvmAddress (BitVec.ofNat 160 word) = none)
        fun word => maps.decodeEvmAddress (BitVec.ofNat 160 word) = none
  | .balanceAt index => WordLocated b content index (· < 2 ^ 128) fun _ => False
  | .amountAt index =>
      WordLocated b content index (fun word => word < 2 ^ 127 ∨ 2 ^ 256 - 2 ^ 127 ≤ word)
        fun _ => False
  | .u64At index => WordLocated b content index (· < 2 ^ 64) fun _ => False
  | .u32At index => WordLocated b content index (· < 2 ^ 32) fun _ => False
  | .bytesAt index len => Located b content index len (fun _ => True) fun _ => False

/-- A number that is cut to its low bytes is the number in range. -/
theorem below_eq_some_mod {size word : ℕ} : below size word = some (word % size) ↔ word < size := by
  unfold below
  split
  · rename_i hlt
    simp [hlt, Nat.mod_eq_of_lt hlt]
  · rename_i hlt
    simp [hlt]

theorem addressOf_of_lt {word : ℕ} (h : word < 2 ^ 160) :
    addressOf word = some (BitVec.ofNat 160 word) := by
  rw [addressOf, below, if_pos h]
  rfl

theorem addressOf_of_le {word : ℕ} (h : 2 ^ 160 ≤ word) : addressOf word = none := by
  rw [addressOf, below, if_neg (not_lt.mpr h)]
  rfl

theorem addressOf_eq_some {word : ℕ} :
    addressOf word = some (BitVec.ofNat 160 word) ↔ word < 2 ^ 160 := by
  by_cases hlt : word < 2 ^ 160
  · exact iff_of_true (addressOf_of_lt hlt) hlt
  · rw [addressOf_of_le (not_lt.mp hlt)]
    exact iff_of_false nofun hlt

theorem ofNat_mod (word : ℕ) : BitVec.ofNat 160 (word % 256 ^ 20) = BitVec.ofNat 160 word := by
  apply BitVec.eq_of_toNat_eq
  rw [BitVec.toNat_ofNat, BitVec.toNat_ofNat]
  omega

/-- The low half of a signed word is its value if the high half repeats its sign. -/
theorem amountOf_eq_some {word : ℕ} (hword : word < 2 ^ 256) :
    amountOf word = some (toAmount (word % 256 ^ 16)) ↔
      word < 2 ^ 127 ∨ 2 ^ 256 - 2 ^ 127 ≤ word := by
  have hwhole : (BitVec.ofNat 256 word).toInt
      = if word < 2 ^ 255 then (word : ℤ) else word - 2 ^ 256 := by
    rw [BitVec.toInt_eq_toNat_cond, BitVec.toNat_ofNat, Nat.mod_eq_of_lt hword]
    split <;> split <;> omega
  have hlow : toAmount (word % 256 ^ 16)
      = if word % 2 ^ 128 < 2 ^ 127 then ((word % 2 ^ 128 : ℕ) : ℤ)
        else ((word % 2 ^ 128 : ℕ) : ℤ) - 2 ^ 128 := by
    rw [toAmount, BitVec.toInt_eq_toNat_cond, BitVec.toNat_ofNat]
    split <;> split <;> omega
  unfold amountOf Amount.minValue Amount.maxValue
  rw [hwhole, hlow]
  by_cases hrange : word < 2 ^ 127 ∨ 2 ^ 256 - 2 ^ 127 ≤ word
  · refine iff_of_true ?_ hrange
    dsimp only
    split
    · rw [if_pos (by omega), if_pos (by omega)]
      congr 1
      omega
    · rw [if_pos (by omega), if_neg (by omega)]
      congr 1
      omega
  · refine iff_of_false ?_ hrange
    dsimp only
    split
    · rw [if_neg (by omega)]
      simp
    · rw [if_neg (by omega)]
      simp

section Answering

variable {b : Build} {maps : Mappings Action A} {content : List UInt8}

/-- The selector is always read as it is. -/
theorem action_answers :
    Answers (InputT.action b content maps) ((Input.action content).bind maps.tryFrom) := by
  rw [InputT.action, ACTION_INDEX, nthParam_zero]
  unfold Input.action
  by_cases hlength : 36 ≤ content.length
  · have hselector : ((content.drop 32).take 4).length = 4 := by
      rw [List.length_take, List.length_drop]
      omega
    rw [if_pos hlength]
    show Answers (ensure (((content.drop 32).take 4).length = 4) "invalid action" >>= fun _ =>
      okOr (maps.tryFrom (ofBytes ((content.drop 32).take 4))) "invalid action") _
    have hensure : (ensure (((content.drop 32).take 4).length = 4) "invalid action"
        : Checked String Unit) = .ok () := if_pos hselector
    have hsome : (if INPUT_BYTES_LENGTH + FUNCTION_SELECTOR_LENGTH ≤ content.length then
        some (ofBytes ((content.drop INPUT_BYTES_LENGTH).take FUNCTION_SELECTOR_LENGTH))
        else none) = some (ofBytes ((content.drop 32).take 4)) := if_pos hlength
    rw [hensure, hsome]
    exact answers_okOr_iff.mpr rfl
  · rw [if_neg hlength]
    have hnone : (if INPUT_BYTES_LENGTH + FUNCTION_SELECTOR_LENGTH ≤ content.length then
        some (ofBytes ((content.drop INPUT_BYTES_LENGTH).take FUNCTION_SELECTOR_LENGTH))
        else none) = none := if_neg hlength
    rw [hnone]
    exact ⟨"invalid input", rfl⟩

variable (hcontent : content.length < b.usize)

include hcontent

theorem accountIdAt_answers_iff (index : ℕ) :
    Answers (InputT.accountIdAt b content maps index)
        (((wordAt content index).bind addressOf).map maps.getAccountId) ↔
      WordLocated b content index (· < 2 ^ 160) fun _ => False := by
  rw [Option.map_bind]
  refine word_ok_iff (n := 20) (v := fun word => maps.getAccountId (BitVec.ofNat 160 word)) hcontent
    index (by decide) fun word _ => ?_
  rw [ofNat_mod, Function.comp_apply]
  by_cases hlt : word < 2 ^ 160
  · rw [addressOf_of_lt hlt]
    exact iff_of_true rfl hlt
  · rw [addressOf_of_le (not_lt.mp hlt)]
    exact iff_of_false nofun hlt

theorem evmAddressAt_answers_iff (index : ℕ) :
    Answers (InputT.evmAddressAt b content index) ((wordAt content index).bind addressOf) ↔
      WordLocated b content index (· < 2 ^ 160) fun _ => False := by
  refine word_ok_iff (n := 20) (v := fun word => BitVec.ofNat 160 word) hcontent index (by decide)
    fun word _ => ?_
  rw [ofNat_mod]
  exact addressOf_eq_some

theorem currencyIdAt_answers_iff (index : ℕ) :
    Answers (InputT.currencyIdAt b content maps index)
        (((wordAt content index).bind addressOf).bind maps.decodeEvmAddress) ↔
      (currencyIdAt index).Exact b maps content := by
  have hread : InputT.currencyIdAt b content maps index
      = lowBytes b content index 20 >>= fun low =>
        okOr (maps.decodeEvmAddress (BitVec.ofNat 160 (ofBytes low))) "invalid currency id" := by
    rw [InputT.currencyIdAt, InputT.evmAddressAt, bind_assoc]
    rfl
  rw [Option.bind_assoc, hread, Exact]
  refine word_answers_iff (n := 20)
    (f := fun word => okOr (maps.decodeEvmAddress (BitVec.ofNat 160 word)) "invalid currency id")
    hcontent (by decide) (fun word _ => ?_) fun word => ?_
  · rw [ofNat_mod, answers_okOr_iff]
    by_cases hlt : word < 2 ^ 160
    · rw [addressOf_of_lt hlt]
      exact iff_of_true rfl (.inl hlt)
    · rw [addressOf_of_le (not_lt.mp hlt)]
      exact ⟨fun h => .inr h.symm, fun h => (h.resolve_left hlt).symm⟩
  · rw [ofNat_mod, answers_okOr_iff]
    exact eq_comm

theorem bytesAt_answers_iff (index len : ℕ) :
    Answers (InputT.bytesAt b content index len) (argument content index len) ↔
      (bytesAt index len).Exact b maps content := by
  have hread : InputT.bytesAt b content index len
      = nthParam b content index (some len) >>= fun param => .ok param := (bind_pure _).symm
  have hsome : argument content index len = (argument content index len).bind some := by simp
  rw [hread, hsome, param_answers_iff hcontent fun param _ => by simp, Exact]
  simp only [answers_ok, reduceCtorEq]

/-- **Each accessor answers with the value that is there exactly if the word can be located and is
in range**, for every input, index and length, however the program was built. -/
theorem read_answers_iff (a : Accessor) :
    Answers (a.read b maps content) (a.denoted maps content) ↔ a.Exact b maps content := by
  cases a with
  | action => exact iff_of_true action_answers trivial
  | accountIdAt index => exact accountIdAt_answers_iff hcontent index
  | evmAddressAt index => exact evmAddressAt_answers_iff hcontent index
  | currencyIdAt index => exact currencyIdAt_answers_iff hcontent index
  | balanceAt index =>
      exact word_ok_iff (v := fun word => word) hcontent index (by decide : BALANCE_BYTES ≤ 20)
        fun _ _ => below_eq_some_mod
  | amountAt index =>
      exact word_ok_iff (v := toAmount) hcontent index (by decide : AMOUNT_BYTES ≤ 20)
        fun _ hword => amountOf_eq_some hword
  | u64At index =>
      exact word_ok_iff (v := fun word => word) hcontent index (by decide : U64_BYTES ≤ 20)
        fun _ _ => below_eq_some_mod
  | u32At index =>
      exact word_ok_iff (v := fun word => word) hcontent index (by decide : U32_BYTES ≤ 20)
        fun _ _ => below_eq_some_mod
  | bytesAt index len => exact bytesAt_answers_iff hcontent index len

end Answering

end Accessor

end InputT

/-! ## The arguments of scheduled calls -/

namespace ScheduleCallPrecompile

open InputT

/-- The arguments that `ScheduleCallPrecompile::execute` reads. -/
def decode {A : Type} (b : Build) (maps : Mappings Action A) (content : List UInt8) :
    Checked String ScheduleCall.Action := do
  let action ← InputT.action b content maps
  match action with
  | .Schedule =>
      let sender ← evmAddressAt b content 1
      let target ← evmAddressAt b content 2
      let value ← balanceAt b content 3
      let gasLimit ← u64At b content 4
      let storageLimit ← u32At b content 5
      let minDelay ← u32At b content 6
      let inputLen ← u32At b content 8
      let inputData ← bytesAt b content 9 inputLen
      pure (.Schedule sender target value gasLimit storageLimit minDelay inputData)
  | .Cancel =>
      let sender ← evmAddressAt b content 1
      let taskIdLen ← u32At b content 3
      let taskId ← bytesAt b content 4 taskIdLen
      pure (.Cancel sender taskId)
  | .Reschedule =>
      let sender ← evmAddressAt b content 1
      let minDelay ← u32At b content 2
      let taskIdLen ← u32At b content 4
      let taskId ← bytesAt b content 5 taskIdLen
      pure (.Reschedule sender minDelay taskId)

theorem decode_cancel {A : Type} {b : Build} {maps : Mappings Action A} {content : List UInt8}
    {sender : EvmAddress} {taskIdLen : ℕ} (haction : InputT.action b content maps = .ok .Cancel)
    (hsender : evmAddressAt b content 1 = .ok sender) (hlen : u32At b content 3 = .ok taskIdLen) :
    decode b maps content
      = bytesAt b content 4 taskIdLen >>= fun taskId => pure (.Cancel sender taskId) := by
  rw [decode, haction]
  show (evmAddressAt b content 1 >>= fun sender => u32At b content 3 >>= fun taskIdLen =>
    bytesAt b content 4 taskIdLen >>= fun taskId =>
      pure (ScheduleCall.Action.Cancel sender taskId)) = _
  rw [hsender, hlen]
  rfl

end ScheduleCallPrecompile

/-! ## Inputs that are misread -/

namespace InputT

/-- A build for a pointer width of 32 bits, without overflow checks. -/
def wasmRelease : Build := ⟨32, le_refl _, false⟩

/-- The mappings of an action, with a map of the ERC-20 contracts. -/
def scheduleMappings (m : EvmManager.CurrencyIdMap) :
    Mappings ScheduleCallPrecompile.Action EvmAddress where
  tryFrom := ScheduleCallPrecompile.Action.tryFrom
  getAccountId address := address
  decodeEvmAddress := m.decodeEvmAddress

/-- An input with a selector and words. -/
def sampleInput (selector : ℕ) (words : List ℕ) : List UInt8 :=
  toBytes 32 (4 + 32 * words.length) ++ toBytes 4 selector ++ (words.map (toBytes 32)).flatten

/-- A cancelled task whose identifier is said to be of `2 ^ 32 - 1` bytes. -/
def hugeCancel : List UInt8 := sampleInput 0x93e32661 [1, 64, 2 ^ 32 - 1, 0]

theorem read_answers_iff_sample :
    Answers ((Accessor.balanceAt 1).read wasmRelease (scheduleMappings ∅) (sampleInput 0 [7]))
        ((Accessor.balanceAt 1).denoted (scheduleMappings ∅) (sampleInput 0 [7])) ↔
      (Accessor.balanceAt 1).Exact wasmRelease (scheduleMappings ∅) (sampleInput 0 [7]) :=
  Accessor.read_answers_iff (by decide +kernel) (.balanceAt 1)

theorem not_answers_of_panicked {b : Build} {content : List UInt8} {index len : ℕ}
    {Action A : Type} (maps : Mappings Action A) (h : bytesAt b content index len = panicked) :
    ¬ Answers ((Accessor.bytesAt index len).read b maps content)
      ((Accessor.bytesAt index len).denoted maps content) := by
  intro hanswers
  change Answers (bytesAt b content index len) (argument content index len) at hanswers
  rw [h] at hanswers
  exact answers_panicked.mp hanswers

/-- **The balance `2 ^ 128 + 5` is read as 5, and the identifier of a cancelled task that is said
to be of `2 ^ 32 - 1` bytes is a panic on a 32-bit machine.** -/
theorem read_misreads :
    balanceAt wasmRelease (sampleInput 0 [2 ^ 128 + 5]) 1 = .ok 5 ∧
      ¬ Answers
        ((Accessor.balanceAt 1).read wasmRelease (scheduleMappings ∅) (sampleInput 0 [2 ^ 128 + 5]))
        ((Accessor.balanceAt 1).denoted (scheduleMappings ∅) (sampleInput 0 [2 ^ 128 + 5])) ∧
      ScheduleCallPrecompile.decode wasmRelease (scheduleMappings ∅) hugeCancel = panicked ∧
      ¬ Answers
        ((Accessor.bytesAt 4 (2 ^ 32 - 1)).read wasmRelease (scheduleMappings ∅) hugeCancel)
        ((Accessor.bytesAt 4 (2 ^ 32 - 1)).denoted (scheduleMappings ∅) hugeCancel) := by
  have hbalance : balanceAt wasmRelease (sampleInput 0 [2 ^ 128 + 5]) 1 = .ok 5 := by
    decide +kernel
  have hbytes : bytesAt wasmRelease hugeCancel 4 (2 ^ 32 - 1) = panicked := by decide +kernel
  refine ⟨hbalance, fun h => ?_, ?_, not_answers_of_panicked _ hbytes⟩
  · change Answers (balanceAt wasmRelease (sampleInput 0 [2 ^ 128 + 5]) 1)
      ((wordAt (sampleInput 0 [2 ^ 128 + 5]) 1).bind (below (2 ^ 128))) at h
    rw [hbalance, answers_ok] at h
    exact absurd h (by decide +kernel)
  · have haction : InputT.action wasmRelease hugeCancel (scheduleMappings ∅) = .ok .Cancel := by
      decide +kernel
    have hsender : evmAddressAt wasmRelease hugeCancel 1 = .ok 1 := by decide +kernel
    have hlen : u32At wasmRelease hugeCancel 3 = .ok (2 ^ 32 - 1) := by decide +kernel
    rw [ScheduleCallPrecompile.decode_cancel haction hsender hlen, hbytes]
    rfl

end InputT

end Setheum.Evm
