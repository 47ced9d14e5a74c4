import Setheum.Evm.Input
import Setheum.Lib.Abi

/-!
# The EVM bridge

The runtime asks ERC-20 contracts for their names, symbols, decimals, supplies and balances, and
has them transfer. What a contract returns is bytes of its own choice, which stand for a value or
do not. Numbers are taken from 256 bits to fewer by saturation, and the positions in a string are
computed in the width of a pointer.

* `sound_iff` — exactly when an answer is the value that the bytes denote, or an error.
* `decodeString_encodeString` — a string that was encoded is decoded.
-/

set_option autoImplicit false

namespace Setheum.EvmBridge

open Checked BigEndian Evm.InputT

def METHOD_NAME : ℕ := 0x06fdde03
def METHOD_SYMBOL : ℕ := 0x95d89b41
def METHOD_DECIMALS : ℕ := 0x313ce567
def METHOD_TOTAL_SUPPLY : ℕ := 0x18160ddd
def METHOD_BALANCE_OF : ℕ := 0x70a08231
def METHOD_TRANSFER : ℕ := 0xa9059cbb

inductive ExitSucceed
  | Stopped
  | Returned
  | Suicided
  deriving DecidableEq, Repr

inductive ExitReason
  | Succeed (reason : ExitSucceed)
  | Error
  | Revert
  | Fatal
  deriving DecidableEq, Repr

/-- An error of the bridge, or one with which the EVM could not execute the call. -/
inductive Error (ε : Type)
  | ExecutionFail
  | ExecutionRevert
  | ExecutionFatal
  | ExecutionError
  | InvalidReturnValue
  | dispatch (e : ε)
  deriving DecidableEq, Repr

structure InvokeContext where
  contract : EvmAddress
  /-- Similar to `msg.sender`. -/
  sender : EvmAddress
  /-- Similar to `tx.origin`. -/
  origin : EvmAddress
  deriving DecidableEq, Repr

inductive ExecutionMode
  | Execute
  | View
  | EstimateGas
  deriving DecidableEq, Repr

structure CallInfo where
  exitReason : ExitReason
  output : List UInt8

/-- The arguments of `EVM::execute`. -/
structure Invocation where
  context : InvokeContext
  input : List UInt8
  value : ℕ
  gasLimit : ℕ
  storageLimit : ℕ
  mode : ExecutionMode

/-- What the EVM answers: any exit and any bytes, or an error. -/
abbrev EVM (ε : Type) := Invocation → Except ε CallInfo

/-! ## The bridge -/

section Bridge

variable {ε : Type}

def handleExitReason : ExitReason → Checked (Error ε) Unit
  | .Succeed .Returned => .ok ()
  | .Succeed .Stopped => .ok ()
  | .Succeed _ => fail .ExecutionFail
  | .Revert => fail .ExecutionRevert
  | .Fatal => fail .ExecutionFatal
  | .Error => fail .ExecutionError

/-- The output of a call, if its exit is handled. -/
def execute (evm : EVM ε) (invocation : Invocation) : Checked (Error ε) (List UInt8) :=
  match evm invocation with
  | .error e => fail (.dispatch e)
  | .ok info => do
      handleExitReason info.exitReason
      pure info.output

/-- `U256::from` of at most 32 bytes. -/
def u256From (bytes : List UInt8) : Checked (Error ε) ℕ :=
  if bytes.length ≤ 32 then .ok (ofBytes bytes) else panicked

/-- `saturated_into` a number of some bits. -/
def saturatedInto (bits n : ℕ) : ℕ := min n (2 ^ bits - 1)

variable (b : Build)

def decodeString (output : List UInt8) : Checked (Error ε) (List UInt8) := do
  ensure (64 ≤ output.length ∧ output.length % 32 = 0) .InvalidReturnValue
  let offset ← slice output 0 32
  let start ← b.asUsize (ofBytes offset)
  let stop ← b.add b.usize start 32
  let length ← slice output start stop
  let start ← b.add b.usize start 32
  let length ← b.asUsize (ofBytes length)
  let stop ← b.add b.usize start length
  ensure (stop ≤ output.length) .InvalidReturnValue
  slice output start stop

variable (evm : EVM ε) (context : InvokeContext)

/-- A call that discards its changes. -/
def view (input : List UInt8) : Invocation := ⟨context, input, 0, 2_100_000, 0, .View⟩

/-- A string that is read by a call. -/
def viewString (method : ℕ) : Checked (Error ε) (List UInt8) := do
  let output ← execute evm (view context (toBytes 4 method))
  decodeString b output

def name : Checked (Error ε) (List UInt8) := viewString b evm context METHOD_NAME

def symbol : Checked (Error ε) (List UInt8) := viewString b evm context METHOD_SYMBOL

/-- A number of some bits that is read by a call. -/
def viewNumber (method bits : ℕ) : Checked (Error ε) ℕ := do
  let output ← execute evm (view context (toBytes 4 method))
  ensure (output.length = 32) .InvalidReturnValue
  let value ← u256From output
  pure (saturatedInto bits value)

def decimals : Checked (Error ε) ℕ := viewNumber evm context METHOD_DECIMALS 8

def totalSupply : Checked (Error ε) ℕ := viewNumber evm context METHOD_TOTAL_SUPPLY 128

def balanceOf (address : EvmAddress) : Checked (Error ε) ℕ := do
  let input := toBytes 4 METHOD_BALANCE_OF ++ toBytes 32 address.toNat
  let output ← execute evm (view context input)
  let value ← u256From output
  pure (saturatedInto 128 value)

def transfer (receiver : EvmAddress) (value : ℕ) : Checked (Error ε) Unit := do
  let input := toBytes 4 METHOD_TRANSFER ++ toBytes 32 receiver.toNat ++ toBytes 32 value
  let storageLimit := if context.origin = 0 then 0 else 1_000
  let output ← execute evm ⟨context, input, 0, 2_100_000, storageLimit, .Execute⟩
  ensure (output ≠ [] ∧ output = toBytes 32 1) .InvalidReturnValue

end Bridge

/-! ## What is asked, and what the bytes denote -/

/-- The bytes that a contract returned, if it did. -/
def returned {ε : Type} (evm : EVM ε) (invocation : Invocation) : Option (List UInt8) :=
  match evm invocation with
  | .ok ⟨.Succeed .Returned, output⟩ => some output
  | .ok ⟨.Succeed .Stopped, output⟩ => some output
  | _ => none

inductive Query
  | name
  | symbol
  | decimals
  | totalSupply
  | balanceOf (address : EvmAddress)
  | transfer (receiver : EvmAddress) (value : ℕ)
  deriving DecidableEq, Repr

namespace Query

/-- The type of an answer. -/
def Value : Query → Type
  | name => List UInt8
  | symbol => List UInt8
  | decimals => ℕ
  | totalSupply => ℕ
  | balanceOf _ => ℕ
  | transfer _ _ => Unit

section Answers

variable {ε : Type} (b : Build) (evm : EVM ε) (context : InvokeContext)

def answer : (q : Query) → Checked (Error ε) q.Value
  | name => EvmBridge.name b evm context
  | symbol => EvmBridge.symbol b evm context
  | decimals => EvmBridge.decimals evm context
  | totalSupply => EvmBridge.totalSupply evm context
  | balanceOf address => EvmBridge.balanceOf evm context address
  | transfer receiver value => EvmBridge.transfer evm context receiver value

/-- The call that a contract gets. -/
def invocation : Query → Invocation
  | name => view context (toBytes 4 METHOD_NAME)
  | symbol => view context (toBytes 4 METHOD_SYMBOL)
  | decimals => view context (toBytes 4 METHOD_DECIMALS)
  | totalSupply => view context (toBytes 4 METHOD_TOTAL_SUPPLY)
  | balanceOf address => view context (toBytes 4 METHOD_BALANCE_OF ++ toBytes 32 address.toNat)
  | transfer receiver value =>
      ⟨context, toBytes 4 METHOD_TRANSFER ++ toBytes 32 receiver.toNat ++ toBytes 32 value, 0,
        2_100_000, if context.origin = 0 then 0 else 1_000, .Execute⟩

end Answers

/-- The value that bytes denote: a number of the bits of its type, a string, or for a transfer that
it was made. -/
def denoted : (q : Query) → List UInt8 → Option q.Value
  | name, output => Abi.string output
  | symbol, output => Abi.string output
  | decimals, output => Abi.uint 8 output
  | totalSupply, output => Abi.uint 128 output
  | balanceOf _, output => Abi.uint 128 output
  | transfer _ _, output => if Abi.bool output = some true then some () else none

end Query

/-- The length of a string is in the output, and the position behind the string is an index. -/
def StringInReach (b : Build) (output : List UInt8) : Prop :=
  ofBytes (output.take 32) + 32 ≤ output.length ∧
    ofBytes (output.take 32) + 32 + ofBytes ((output.drop (ofBytes (output.take 32))).take 32)
      < b.usize

instance (b : Build) (output : List UInt8) : Decidable (StringInReach b output) :=
  inferInstanceAs (Decidable (_ ∧ _))

/-- The bytes that an answer can be given for. -/
def Query.Decodable (b : Build) (output : List UInt8) : Query → Prop
  | name => 64 ≤ output.length → output.length % 32 = 0 → StringInReach b output
  | symbol => 64 ≤ output.length → output.length % 32 = 0 → StringInReach b output
  | decimals => output.length = 32 → ofBytes output < 2 ^ 8
  | totalSupply => output.length = 32 → ofBytes output < 2 ^ 128
  | balanceOf _ => output.length = 32 ∧ ofBytes output < 2 ^ 128
  | transfer _ _ => True

/-! ## Decoding -/

section Decoding

variable {ε : Type} {b : Build} {output : List UInt8}

theorem decodeString_of_misaligned (h : ¬ (64 ≤ output.length ∧ output.length % 32 = 0)) :
    (decodeString b output : Checked (Error ε) (List UInt8)) = fail .InvalidReturnValue := by
  rw [decodeString, ensure, if_neg h]
  rfl

/-- The first word, then the word that it points to, and then as many bytes. -/
theorem decodeString_of_aligned (h : 64 ≤ output.length ∧ output.length % 32 = 0) :
    (decodeString b output : Checked (Error ε) (List UInt8)) =
      b.asUsize (ofBytes (output.take 32)) >>= fun start =>
        (b.add b.usize start 32 >>= fun stop => slice output start stop) >>= fun length =>
          b.add b.usize start 32 >>= fun start => b.asUsize (ofBytes length) >>= fun length =>
            b.add b.usize start length >>= fun stop =>
              ensure (stop ≤ output.length) .InvalidReturnValue >>= fun _ =>
                slice output start stop := by
  have hslice : (slice output 0 32 : Checked (Error ε) _) = .ok (output.take 32) :=
    if_pos ⟨by decide, by omega⟩
  rw [decodeString, ensure, if_pos h]
  show (slice output 0 32 >>= fun offset => _) = _
  rw [hslice]
  simp only [bind_assoc]
  rfl

/-- The string is found where it is in reach, and everywhere else the program panics. -/
theorem decodeString_eq (h : 64 ≤ output.length ∧ output.length % 32 = 0) :
    (decodeString b output : Checked (Error ε) (List UInt8)) =
      if StringInReach b output then okOr (Abi.string output) .InvalidReturnValue
      else panicked := by
  have h32 : 32 < b.usize := Build.lt_usize (by decide)
  rw [decodeString_of_aligned h]
  generalize hoffset : ofBytes (output.take 32) = offset
  generalize hlength : ofBytes ((output.drop offset).take 32) = length
  have hreach : StringInReach b output ↔
      offset + 32 ≤ output.length ∧ offset + 32 + length < b.usize := by
    rw [StringInReach, hoffset, hlength]
  by_cases hindex : offset < b.usize
  · rw [Build.asUsize, if_pos hindex]
    show ((b.add b.usize offset 32 >>= fun stop => slice output offset stop) >>= _) = _
    rw [add_slice hindex h32]
    by_cases hword : offset + 32 < b.usize ∧ offset + 32 ≤ output.length
    · rw [if_pos hword, Build.add, Build.fit_of_lt hword.1]
      show (b.asUsize (ofBytes ((output.drop offset).take 32)) >>= fun length =>
        b.add b.usize (offset + 32) length >>= fun stop =>
          ensure (stop ≤ output.length) Error.InvalidReturnValue >>= fun _ =>
            slice output (offset + 32) stop) = _
      rw [hlength, Build.asUsize]
      by_cases hlt : length < b.usize
      · rw [if_pos hlt]
        show (b.add b.usize (offset + 32) length >>= fun stop => _) = _
        rw [add_ensure_slice hword.1 hlt hword.2]
        by_cases hend : offset + 32 + length < b.usize
        · have hstring : Abi.string output =
              if offset + 32 + length ≤ output.length then
                some ((output.drop (offset + 32)).take length)
              else none := by
            have hfirst : Abi.wordAt output 0 = some offset := by
              rw [Abi.wordAt_zero (by omega), hoffset]
            have hsecond : Abi.wordAt output offset = some length := by
              rw [Abi.wordAt, if_pos hword.2, hlength]
            rw [Abi.string, hfirst, Option.bind_eq_bind, Option.bind_some, hsecond,
              Option.bind_some]
          rw [if_pos hend, if_pos (hreach.mpr ⟨hword.2, hend⟩), hstring]
          split
          · rfl
          · rfl
        · rw [if_neg hend, if_neg fun hr => hend (hreach.mp hr).2]
      · rw [if_neg hlt, if_neg fun hr => ?_]
        · rfl
        · have hin := hreach.mp hr
          omega
    · rw [if_neg hword, if_neg fun hr => ?_]
      · rfl
      · have hin := hreach.mp hr
        exact hword ⟨by omega, hin.1⟩
  · rw [Build.asUsize, if_neg hindex, if_neg fun hr => ?_]
    · rfl
    · have hin := hreach.mp hr
      omega

theorem sound_decodeString_iff :
    Sound (decodeString b output : Checked (Error ε) _) (Abi.string output) ↔
      (64 ≤ output.length → output.length % 32 = 0 → StringInReach b output) := by
  by_cases haligned : 64 ≤ output.length ∧ output.length % 32 = 0
  · rw [decodeString_eq haligned]
    by_cases hreach : StringInReach b output
    · rw [if_pos hreach]
      exact iff_of_true (answers_okOr_iff.mpr rfl).sound fun _ _ => hreach
    · rw [if_neg hreach]
      exact iff_of_false id fun h => hreach (h haligned.1 haligned.2)
  · rw [decodeString_of_misaligned haligned]
    exact iff_of_true trivial fun h h' => absurd ⟨h, h'⟩ haligned

theorem u256From_of_length (h : output.length = 32) :
    (u256From output : Checked (Error ε) ℕ) = .ok (ofBytes output) :=
  if_pos (by omega)

theorem uint_of_length (bits : ℕ) (h : output.length = 32) :
    Abi.uint bits output = if ofBytes output < 2 ^ bits then some (ofBytes output) else none := by
  rw [Abi.uint, Abi.wordAt_zero (by omega), List.take_of_length_le (by omega)]
  rfl

/-- A number is exact if it does not have to be saturated. -/
theorem sound_saturatedInto_iff (bits : ℕ) (h : output.length = 32) :
    Sound (.ok (saturatedInto bits (ofBytes output)) : Checked (Error ε) ℕ)
        (Abi.uint bits output) ↔
      ofBytes output < 2 ^ bits := by
  rw [sound_ok, uint_of_length bits h, saturatedInto]
  by_cases hlt : ofBytes output < 2 ^ bits
  · rw [if_pos hlt, Nat.min_eq_left (by omega)]
    exact iff_of_true rfl hlt
  · rw [if_neg hlt]
    exact iff_of_false nofun hlt

end Decoding

/-! ## Answers -/

section Soundness

variable {ε : Type} {b : Build} {evm : EVM ε} {context : InvokeContext}

/-- An answer from the bytes that were returned; without any there is an error. -/
theorem sound_execute_iff {α : Type} {invocation : Invocation}
    {f : List UInt8 → Checked (Error ε) α} {g : List UInt8 → Option α} {P : List UInt8 → Prop}
    (hf : ∀ output, Sound (f output) (g output) ↔ P output) :
    Sound (execute evm invocation >>= f) ((returned evm invocation).bind g) ↔
      ∀ output, returned evm invocation = some output → P output := by
  have hfails : ∀ e : Error ε, returned evm invocation = none →
      execute evm invocation = fail e →
      (Sound (execute evm invocation >>= f) ((returned evm invocation).bind g) ↔
        ∀ output, returned evm invocation = some output → P output) := by
    intro e hnone hfail
    rw [hnone, hfail]
    exact iff_of_true trivial nofun
  have hanswers : ∀ output, returned evm invocation = some output →
      execute evm invocation = .ok output →
      (Sound (execute evm invocation >>= f) ((returned evm invocation).bind g) ↔
        ∀ output, returned evm invocation = some output → P output) := by
    intro output hsome hok
    rw [hsome, hok]
    exact (hf output).trans ⟨fun h _ heq => Option.some.inj heq ▸ h, fun h => h output rfl⟩
  cases hevm : evm invocation with
  | error e =>
      exact hfails (.dispatch e) (by rw [returned, hevm]) (by rw [execute, hevm])
  | ok info =>
      obtain ⟨exitReason, output⟩ := info
      cases exitReason with
      | Succeed reason =>
          cases reason with
          | Returned => exact hanswers output (by rw [returned, hevm]) (by rw [execute, hevm]; rfl)
          | Stopped => exact hanswers output (by rw [returned, hevm]) (by rw [execute, hevm]; rfl)
          | Suicided =>
              exact hfails .ExecutionFail (by rw [returned, hevm]) (by rw [execute, hevm]; rfl)
      | Error => exact hfails .ExecutionError (by rw [returned, hevm]) (by rw [execute, hevm]; rfl)
      | Revert =>
          exact hfails .ExecutionRevert (by rw [returned, hevm]) (by rw [execute, hevm]; rfl)
      | Fatal => exact hfails .ExecutionFatal (by rw [returned, hevm]) (by rw [execute, hevm]; rfl)

theorem sound_number_iff {output : List UInt8} (bits : ℕ) :
    Sound (ensure (output.length = 32) Error.InvalidReturnValue >>= fun _ =>
        u256From output >>= fun value => pure (saturatedInto bits value) : Checked (Error ε) ℕ)
        (Abi.uint bits output) ↔
      (output.length = 32 → ofBytes output < 2 ^ bits) := by
  by_cases hlength : output.length = 32
  · rw [ensure, if_pos hlength, u256From_of_length hlength]
    exact (sound_saturatedInto_iff bits hlength).trans ⟨fun h _ => h, fun h => h hlength⟩
  · rw [ensure, if_neg hlength]
    exact iff_of_true trivial fun h => absurd h hlength

/-- Without a check of the length, fewer bytes are a number too, and more are a panic. -/
theorem sound_balance_iff {output : List UInt8} :
    Sound (u256From output >>= fun value => pure (saturatedInto 128 value) : Checked (Error ε) ℕ)
        (Abi.uint 128 output) ↔
      output.length = 32 ∧ ofBytes output < 2 ^ 128 := by
  by_cases hlength : output.length = 32
  · rw [u256From_of_length hlength]
    exact (sound_saturatedInto_iff 128 hlength).trans (and_iff_right hlength).symm
  · refine iff_of_false ?_ fun h => hlength h.1
    by_cases hshort : output.length ≤ 32
    · have hnone : Abi.uint 128 output = none := by
        rw [Abi.uint, Abi.wordAt, if_neg (by omega)]
        rfl
      rw [u256From, if_pos hshort, hnone]
      intro hsound
      cases hsound
    · rw [u256From, if_neg hshort]
      exact id

theorem sound_transfer {output : List UInt8} :
    Sound (ensure (output ≠ [] ∧ output = toBytes 32 1) Error.InvalidReturnValue :
        Checked (Error ε) Unit)
      (if Abi.bool output = some true then some () else none) := by
  unfold ensure
  split
  · rename_i htrue
    rw [htrue.2]
    exact if_pos (by decide +kernel)
  · trivial

/-- An answer is the value that the bytes denote, or an error, exactly if they can be decoded. -/
theorem Query.answer_sound_iff (q : Query) :
    Sound (q.answer b evm context) ((returned evm (q.invocation context)).bind q.denoted) ↔
      ∀ output, returned evm (q.invocation context) = some output → q.Decodable b output := by
  cases q with
  | name => exact sound_execute_iff fun _ => sound_decodeString_iff
  | symbol => exact sound_execute_iff fun _ => sound_decodeString_iff
  | decimals => exact sound_execute_iff fun _ => sound_number_iff 8
  | totalSupply => exact sound_execute_iff fun _ => sound_number_iff 128
  | balanceOf address => exact sound_execute_iff fun _ => sound_balance_iff
  | transfer receiver value =>
      exact sound_execute_iff fun _ => iff_of_true sound_transfer trivial

/-- A number has no more bits than its type. -/
theorem viewNumber_lt {method bits v : ℕ} (h : viewNumber evm context method bits = .ok v) :
    v < 2 ^ bits := by
  have hpos := Nat.two_pow_pos bits
  unfold viewNumber at h
  cases hexecute : execute evm (view context (toBytes 4 method)) with
  | error e =>
      rw [hexecute] at h
      cases h
  | ok output =>
      rw [hexecute] at h
      by_cases hlength : output.length = 32
      · have hv : saturatedInto bits (ofBytes output) = v := by
          change (ensure (output.length = 32) Error.InvalidReturnValue >>= fun _ =>
            u256From output >>= fun value => pure (saturatedInto bits value)) = .ok v at h
          rw [ensure, if_pos hlength, u256From_of_length hlength] at h
          exact Except.ok.inj h
        rw [← hv, saturatedInto]
        omega
      · change (ensure (output.length = 32) Error.InvalidReturnValue >>= fun _ => _) = .ok v at h
        rw [ensure, if_neg hlength] at h
        cases h

/-- **A string that was encoded is decoded.** -/
theorem decodeString_encodeString {s : List UInt8} (hs : s.length < 2 ^ 256)
    (hfits : (Abi.encodeString s).length < b.usize) :
    (decodeString b (Abi.encodeString s) : Checked (Error ε) _) = .ok s := by
  have hlength := Abi.length_encodeString s
  have hoffset : ofBytes ((Abi.encodeString s).take 32) = 32 := by
    have hword := Abi.wordAt_encodeString_offset s
    rw [Abi.wordAt_zero (by omega)] at hword
    exact Option.some.inj hword
  have hreach : StringInReach b (Abi.encodeString s) := by
    have hword := Abi.wordAt_encodeString_length hs
    rw [Abi.wordAt, if_pos (by omega)] at hword
    rw [StringInReach, hoffset, Option.some.inj hword]
    omega
  rw [decodeString_eq ⟨by omega, Abi.length_encodeString_mod s⟩, if_pos hreach,
    Abi.string_encodeString hs]
  rfl

/-- **Every answer is sound exactly if the bytes that were returned can be decoded, and a string
that was encoded is decoded.** -/
theorem sound_iff (b : Build) (evm : EVM ε) (context : InvokeContext) :
    (∀ q : Query,
      Sound (q.answer b evm context) ((returned evm (q.invocation context)).bind q.denoted) ↔
        ∀ output, returned evm (q.invocation context) = some output → q.Decodable b output) ∧
      ∀ s : List UInt8, s.length < 2 ^ 256 → (Abi.encodeString s).length < b.usize →
        (decodeString b (Abi.encodeString s) : Checked (Error ε) _) = .ok s :=
  ⟨fun q => q.answer_sound_iff, fun _ hs hfits => decodeString_encodeString hs hfits⟩

end Soundness

/-! ## Contracts that are not read -/

/-- Every call returns the same bytes. -/
def returning (output : List UInt8) : EVM Unit := fun _ => .ok ⟨.Succeed .Returned, output⟩

def sampleContext : InvokeContext := ⟨0x02000000, 0, 0⟩

def SoundAt (evm : EVM Unit) (q : Query) : Prop :=
  Sound (q.answer wasmRelease evm sampleContext)
    ((returned evm (q.invocation sampleContext)).bind q.denoted)

theorem SoundAt.uint_of_decimals {evm : EVM Unit} {d : ℕ} {output : List UInt8}
    (h : SoundAt evm .decimals) (hd : decimals evm sampleContext = .ok d)
    (houtput : returned evm (Query.decimals.invocation sampleContext) = some output) :
    Abi.uint 8 output = some d := by
  have hvalue : (returned evm (Query.decimals.invocation sampleContext)).bind (Abi.uint 8)
      = some d := h.eq_of_ok hd
  rwa [houtput] at hvalue

/-- **Decimals of 256 are read as 255. A balance of two words, and a name at `2 ^ 32`, are a
panic.** -/
theorem unsound_answers :
    (decimals (returning (toBytes 32 256)) sampleContext = .ok 255 ∧
      returned (returning (toBytes 32 256)) (Query.decimals.invocation sampleContext)
        = some (toBytes 32 256) ∧ Query.decimals.denoted (toBytes 32 256) = none ∧
      ¬ SoundAt (returning (toBytes 32 256)) .decimals) ∧
    (balanceOf (returning (toBytes 64 1)) sampleContext 1 = panicked ∧
      ¬ SoundAt (returning (toBytes 64 1)) (.balanceOf 1)) ∧
    (name wasmRelease (returning (toBytes 64 (2 ^ 288))) sampleContext = panicked ∧
      ¬ SoundAt (returning (toBytes 64 (2 ^ 288))) .name) := by
  have hdecimals : decimals (returning (toBytes 32 256)) sampleContext = .ok 255 := by
    decide +kernel
  have hdenoted : Abi.uint 8 (toBytes 32 256) = none := by decide +kernel
  have hbalance : balanceOf (returning (toBytes 64 1)) sampleContext 1 = panicked := by
    decide +kernel
  have hname : name wasmRelease (returning (toBytes 64 (2 ^ 288))) sampleContext = panicked := by
    decide +kernel
  refine ⟨⟨hdecimals, rfl, hdenoted, fun h => ?_⟩, ⟨hbalance, fun h => ?_⟩,
    ⟨hname, fun h => ?_⟩⟩
  · have hsome := h.uint_of_decimals hdecimals rfl
    rw [hdenoted] at hsome
    cases hsome
  · exact h.ne_panicked hbalance
  · exact h.ne_panicked hname

end Setheum.EvmBridge

namespace Setheum.EvmManager

open StorageMap

/-! ## The bridge that contracts are mapped through -/

/-- What a contract answers to a call from nobody. -/
def bridge {ε : Type} (b : Checked.Build) (evm : EvmBridge.EVM ε) : EVMBridge where
  name address := (EvmBridge.name b evm ⟨address, 0, 0⟩).toOption
  symbol address := (EvmBridge.symbol b evm ⟨address, 0, 0⟩).toOption
  decimals address := (EvmBridge.decimals evm ⟨address, 0, 0⟩).toOption

theorem bridge_decimals_lt {ε : Type} {b : Checked.Build} {evm : EvmBridge.EVM ε} {a : EvmAddress}
    {d : ℕ} (h : (bridge b evm).decimals a = some d) : d < 256 := by
  change (EvmBridge.decimals evm ⟨a, 0, 0⟩).toOption = some d at h
  cases hdecimals : EvmBridge.decimals evm ⟨a, 0, 0⟩ with
  | error e =>
      rw [hdecimals] at h
      cases h
  | ok v =>
      rw [hdecimals] at h
      cases h
      exact EvmBridge.viewNumber_lt hdecimals

/-- Contracts that are mapped through the bridge have decimals of 8 bits. -/
theorem CurrencyIdMap.decimalsInRange_bridge {ε : Type} (b : Checked.Build)
    (calls : List (EvmBridge.EVM ε × EvmAddress)) :
    (Machine.run CurrencyIdMap.step ∅
      (calls.map fun call => (bridge b call.1, call.2))).DecimalsInRange := by
  refine decimalsInRange_run _ fun call hcall a d hd => ?_
  obtain ⟨call', -, rfl⟩ := List.mem_map.mp hcall
  exact bridge_decimals_lt hd

end Setheum.EvmManager
