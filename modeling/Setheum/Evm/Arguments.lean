import Setheum.Evm.Input

/-!
# Inputs as words

An input that is no larger than memory can be is read as natural numbers would read it: each
accessor returns the low bytes of its word if the input has that word, and refuses the input
otherwise. No position is wrapped around and nothing panics.

* `balanceAt_eq`, `u64At_eq`, `u32At_eq`, `accountIdAt_eq`, `evmAddressAt_eq`, `currencyIdAt_eq` —
  what each accessor returns.
* `wordAt_callData`, `action_callData` — the words and the selector of the call data of a contract.
-/

set_option autoImplicit false

namespace Setheum.Evm

open Checked BigEndian

namespace InputT

variable {Action A : Type} {b : Build} {maps : Mappings Action A} {content : List UInt8}
variable {index n : ℕ}

/-! ## What is read -/

/-- The number in the last `n` bytes of the word of an argument, if the input has it. -/
def lowWordAt (content : List UInt8) (index n : ℕ) : Option ℕ :=
  (wordAt content index).map (· % 256 ^ n)

/-- The account that the low bytes of a word stand for. -/
def lowAccountAt (maps : Mappings Action A) (content : List UInt8) (index : ℕ) : Option A :=
  (lowWordAt content index 20).map fun word => maps.getAccountId (BitVec.ofNat 160 word)

/-- The address in the low bytes of a word. -/
def lowAddressAt (content : List UInt8) (index : ℕ) : Option EvmAddress :=
  (lowWordAt content index 20).map (BitVec.ofNat 160)

/-- The currency that the low bytes of a word stand for, if any. -/
def lowCurrencyAt (maps : Mappings Action A) (content : List UInt8) (index : ℕ) :
    Option CurrencyId :=
  (lowAddressAt content index).bind maps.decodeEvmAddress

/-- An index whose word ends before the last position. -/
def Placed (b : Build) (index : ℕ) : Prop := index ≠ 0 ∧ 36 + 32 * index < b.usize

/-- Every index that the precompiles write down is placed. -/
theorem placed_of_lt (hpos : index ≠ 0) (hlt : index < 2 ^ 26) : Placed b index :=
  ⟨hpos, Build.lt_usize (by omega)⟩

theorem lowBytes_eq (h : Placed b index) (hn : n ≤ 32) :
    lowBytes b content index n
      = okOr ((argument content index 32).map fun param => param.drop (32 - n))
          "invalid input" := by
  have hfits : 36 + 32 * (index - 1) + 32 < b.usize := by
    have hindex := h.1
    have hlt := h.2
    omega
  rw [lowBytes, PER_PARAM_BYTES]
  have hparam : nthParam b content index none = nthParam b content index (some 32) := rfl
  rw [hparam, nthParam_fits h.1 hfits]
  cases hargument : argument content index 32 with
  | none => rfl
  | some param => exact copy_low (length_argument hargument) hn

/-- The bytes of a word spell its low word. -/
theorem lowBytes_bind {α : Type} (h : Placed b index) (hn : n ≤ 32) (f : ℕ → Checked String α) :
    (lowBytes b content index n >>= fun low => f (ofBytes low))
      = okOr (lowWordAt content index n) "invalid input" >>= f := by
  rw [lowBytes_eq h hn, lowWordAt, wordAt]
  cases hargument : argument content index 32 with
  | none => rfl
  | some param =>
      have hlength : param.length = 32 - n + n := by
        rw [length_argument hargument]
        omega
      show f (ofBytes (param.drop (32 - n))) = f (ofBytes param % 256 ^ n)
      rw [ofBytes_drop hlength]

theorem balanceAt_eq (h : Placed b index) :
    balanceAt b content index = okOr (lowWordAt content index 16) "invalid input" := by
  rw [balanceAt, lowBytes_bind h (by decide) pure]
  exact bind_pure _

theorem u64At_eq (h : Placed b index) :
    u64At b content index = okOr (lowWordAt content index 8) "invalid input" := by
  rw [u64At, lowBytes_bind h (by decide) pure]
  exact bind_pure _

theorem u32At_eq (h : Placed b index) :
    u32At b content index = okOr (lowWordAt content index 4) "invalid input" := by
  rw [u32At, lowBytes_bind h (by decide) pure]
  exact bind_pure _

theorem evmAddressAt_eq (h : Placed b index) :
    evmAddressAt b content index = okOr (lowAddressAt content index) "invalid input" := by
  rw [evmAddressAt, lowBytes_bind h (by decide) fun word => pure (BitVec.ofNat 160 word),
    lowAddressAt]
  cases lowWordAt content index 20 with
  | none => rfl
  | some word => rfl

theorem accountIdAt_eq (h : Placed b index) :
    accountIdAt b content maps index = okOr (lowAccountAt maps content index) "invalid input" := by
  rw [accountIdAt,
    lowBytes_bind h (by decide) fun word => pure (maps.getAccountId (BitVec.ofNat 160 word)),
    lowAccountAt]
  cases lowWordAt content index 20 with
  | none => rfl
  | some word => rfl

theorem currencyIdAt_eq (h : Placed b index) :
    currencyIdAt b content maps index
      = okOr (lowAddressAt content index) "invalid input" >>= fun address =>
          okOr (maps.decodeEvmAddress address) "invalid currency id" := by
  rw [currencyIdAt, evmAddressAt_eq h]

/-! ## Success and refusal -/

section Outcomes

variable {x : ℕ}

theorem balanceAt_ok_iff (h : Placed b index) :
    balanceAt b content index = .ok x ↔ lowWordAt content index 16 = some x := by
  rw [balanceAt_eq h, okOr_eq_ok_iff]

theorem u32At_ok_iff (h : Placed b index) :
    u32At b content index = .ok x ↔ lowWordAt content index 4 = some x := by
  rw [u32At_eq h, okOr_eq_ok_iff]

theorem accountIdAt_ok_iff {who : A} (h : Placed b index) :
    accountIdAt b content maps index = .ok who ↔ lowAccountAt maps content index = some who := by
  rw [accountIdAt_eq h, okOr_eq_ok_iff]

theorem currencyIdAt_ok_iff {currencyId : CurrencyId} (h : Placed b index) :
    currencyIdAt b content maps index = .ok currencyId ↔
      lowCurrencyAt maps content index = some currencyId := by
  rw [currencyIdAt_eq h, lowCurrencyAt]
  cases lowAddressAt content index with
  | none => exact iff_of_false nofun nofun
  | some address => exact okOr_eq_ok_iff

/-- The errors that the arguments of an input can be refused with. -/
def refusals : List String := ["invalid input", "invalid action", "invalid currency id"]

theorem okOr_invalid_refuses {α : Type} (o : Option α) :
    Refuses refusals (okOr o "invalid input") :=
  okOr_refuses o (by simp [refusals])

theorem balanceAt_refuses (h : Placed b index) : Refuses refusals (balanceAt b content index) := by
  rw [balanceAt_eq h]
  exact okOr_invalid_refuses _

theorem u32At_refuses (h : Placed b index) : Refuses refusals (u32At b content index) := by
  rw [u32At_eq h]
  exact okOr_invalid_refuses _

theorem accountIdAt_refuses (h : Placed b index) :
    Refuses refusals (accountIdAt b content maps index) := by
  rw [accountIdAt_eq h]
  exact okOr_invalid_refuses _

theorem currencyIdAt_refuses (h : Placed b index) :
    Refuses refusals (currencyIdAt b content maps index) := by
  rw [currencyIdAt_eq h]
  exact (okOr_invalid_refuses _).bind fun address _ => okOr_refuses _ (by simp [refusals])

theorem action_ok_iff {x : Action} :
    action b content maps = .ok x ↔ (Input.action content).bind maps.tryFrom = some x :=
  Accessor.action_answers.ok_iff

theorem action_refuses : Refuses refusals (action b content maps) := by
  rw [action, ACTION_INDEX, nthParam_zero]
  split
  · rw [ok_bind]
    exact (ensure_refuses (by simp [refusals])).bind fun _ _ => okOr_refuses _ (by simp [refusals])
  · exact okOr_invalid_refuses none |>.bind fun _ h => by cases h

end Outcomes

/-! ## Call data -/

/-- The call data of a function of a contract, after their size: the selector, and a word for each
argument. -/
def callData (selector : ℕ) (words : List ℕ) : List UInt8 :=
  toBytes 32 (4 + 32 * words.length) ++ (toBytes 4 selector ++ (words.map (toBytes 32)).flatten)

section CallData

variable {selector : ℕ} {words : List ℕ} {rest : List UInt8}

theorem length_words (words : List ℕ) :
    (words.map (toBytes 32)).flatten.length = 32 * words.length := by
  induction words with
  | nil => rfl
  | cons word words ih =>
      rw [List.map_cons, List.flatten_cons, List.length_append, length_toBytes, ih,
        List.length_cons]
      omega

theorem length_callData : (callData selector words).length = 36 + 32 * words.length := by
  rw [callData, List.length_append, List.length_append, length_toBytes, length_toBytes,
    length_words]
  omega

/-- The word that stands after so many bytes. -/
theorem wordAt_of_split (before after : List UInt8) {word i : ℕ}
    (hcontent : content = before ++ (toBytes 32 word ++ after))
    (hbefore : before.length = 36 + 32 * i) (hword : word < 2 ^ 256) :
    wordAt content (i + 1) = some word := by
  have hlength : (toBytes 32 word).length = 32 := length_toBytes ..
  have hin : 1 ≤ i + 1 ∧ 36 + 32 * (i + 1 - 1) + 32 ≤ content.length := by
    rw [hcontent, List.length_append, List.length_append, hbefore, hlength]
    omega
  have hpow : 256 ^ 32 = 2 ^ 256 := by decide
  rw [wordAt, argument, if_pos hin, Nat.add_sub_cancel, hcontent, ← hbefore, List.drop_left,
    List.take_left' hlength, Option.map_some, ofBytes_toBytes, hpow, Nat.mod_eq_of_lt hword]

/-- **The words of call data are read back**, whatever comes after them. -/
theorem wordAt_callData {i word : ℕ} (hword : words[i]? = some word) (hlt : word < 2 ^ 256) :
    wordAt (callData selector words ++ rest) (i + 1) = some word := by
  obtain ⟨hi, hget⟩ := List.getElem?_eq_some_iff.mp hword
  have hsplit : words = words.take i ++ (word :: words.drop (i + 1)) := by
    rw [← hget, List.cons_getElem_drop_succ, List.take_append_drop]
  refine wordAt_of_split
    (toBytes 32 (4 + 32 * words.length)
      ++ (toBytes 4 selector ++ ((words.take i).map (toBytes 32)).flatten))
    (((words.drop (i + 1)).map (toBytes 32)).flatten ++ rest) ?_ ?_ hlt
  · have hflatten : (words.map (toBytes 32)).flatten
        = ((words.take i).map (toBytes 32)).flatten
          ++ (toBytes 32 word ++ ((words.drop (i + 1)).map (toBytes 32)).flatten) := by
      conv_lhs => rw [hsplit]
      rw [List.map_append, List.flatten_append, List.map_cons, List.flatten_cons]
    rw [callData, hflatten]
    simp only [List.append_assoc]
  · rw [List.length_append, List.length_append, length_toBytes, length_toBytes, length_words,
      List.length_take_of_le (Nat.le_of_lt hi)]
    omega

theorem lowWordAt_callData {i word n : ℕ} (hword : words[i]? = some word)
    (hn : n ≤ 32) (hlt : word < 256 ^ n) :
    lowWordAt (callData selector words ++ rest) (i + 1) n = some word := by
  have hpow : 256 ^ n ≤ 2 ^ 256 := by
    calc 256 ^ n ≤ 256 ^ 32 := Nat.pow_le_pow_right (by decide) hn
      _ = 2 ^ 256 := by decide
  rw [lowWordAt, wordAt_callData hword (by omega), Option.map_some, Nat.mod_eq_of_lt hlt]

theorem action_callData (hselector : selector < 2 ^ 32) :
    Input.action (callData selector words ++ rest) = some selector := by
  have hlength : INPUT_BYTES_LENGTH + FUNCTION_SELECTOR_LENGTH
      ≤ (callData selector words ++ rest).length := by
    rw [List.length_append, length_callData, INPUT_BYTES_LENGTH, FUNCTION_SELECTOR_LENGTH]
    omega
  have hsize : (toBytes 32 (4 + 32 * words.length)).length = INPUT_BYTES_LENGTH :=
    length_toBytes ..
  have htake : (toBytes 4 selector).length = FUNCTION_SELECTOR_LENGTH := length_toBytes ..
  have hpow : 256 ^ 4 = 2 ^ 32 := by decide
  rw [Input.action, if_pos hlength, callData]
  simp only [List.append_assoc]
  rw [List.drop_left' hsize, List.take_left' htake, ofBytes_toBytes, hpow,
    Nat.mod_eq_of_lt hselector]

end CallData

end InputT

end Setheum.Evm
