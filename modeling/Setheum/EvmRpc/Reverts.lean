import Setheum.EvmRpc.Model
import Setheum.Lib.Abi

/-!
# Reasons of reverts

The output of a contract that reverts is read without trust: whatever the bytes, and however long
they say that the reason is, the decoder ends without a panic, and it answers with a text exactly
where the bytes have one.

* `decodeRevertMessage_outcome` — which texts are decoded.
* `decodeRevertMessage_encodeString` — the reason that Solidity writes, if it has one, is read.
* `errorOnExecutionFailure_outcome` — no exit makes the RPC panic.
-/

set_option autoImplicit false

namespace Setheum.EvmRpc

open Checked BigEndian

variable {b : Build}

/-- The bytes of a text. -/
def utf8 (s : String) : List UInt8 := s.toUTF8.data.toList

theorem fromUTF8_eq_some_iff {body : List UInt8} {s : String} :
    String.fromUTF8? ⟨body.toArray⟩ = some s ↔ utf8 s = body := by
  unfold String.fromUTF8? utf8
  constructor
  · intro h
    split at h
    · obtain rfl := Option.some.inj h
      rfl
    · cases h
  · intro h
    have hbytes : (⟨body.toArray⟩ : ByteArray) = s.toByteArray := by
      rw [← h]
      rfl
    rw [hbytes, dif_pos s.isValidUTF8]
    rfl

/-- What is decoded: the length is at byte 36, and the text at byte 68. -/
theorem decodeRevertMessage_eq {data : List UInt8} (hdata : data.length < b.usize) :
    decodeRevertMessage b data = .ok
      (if 68 < data.length ∧ 68 + ofBytes ((data.drop 36).take 32) ≤ data.length then
        String.fromUTF8? ⟨((data.drop 68).take (ofBytes ((data.drop 36).take 32))).toArray⟩
      else none) := by
  unfold decodeRevertMessage
  dsimp only
  by_cases hlong : 68 < data.length
  · have hword : (slice data 36 68 : Checked RpcError (List UInt8))
        = .ok ((data.drop 36).take 32) := if_pos ⟨by omega, hlong.le⟩
    rw [if_pos hlong, hword, ok_bind]
    generalize ofBytes ((data.drop 36).take 32) = len
    by_cases hlen : 68 + len ≤ data.length
    · have hmin : min len (b.usize - 1) = len := by omega
      have hbody : (slice data 68 (68 + len) : Checked RpcError (List UInt8))
          = .ok ((data.drop 68).take len) := by
        rw [slice, if_pos ⟨by omega, hlen⟩, Nat.add_sub_cancel_left]
      rw [hmin, if_neg (by omega), if_neg (by omega), hbody, ok_bind, if_pos ⟨hlong, hlen⟩]
      rfl
    · have hnone : ¬ (68 < data.length ∧ 68 + len ≤ data.length) := fun h => hlen h.2
      rw [if_neg hnone]
      split
      · rfl
      · rw [if_pos (by omega)]
        rfl
  · have hnone : ¬ (68 < data.length ∧ 68 + ofBytes ((data.drop 36).take 32) ≤ data.length) :=
      fun h => hlong h.1
    rw [if_neg hlong, if_neg hnone]
    rfl

/-- **Which texts are decoded.** No output makes the decoder panic, and a text is decoded exactly if
the output has its length and its bytes at their places, and something there. -/
theorem decodeRevertMessage_outcome (hwidth : b.pointerBits ≤ 64) {data : List UInt8}
    (hdata : data.length < b.usize) :
    ∃ message, decodeRevertMessage b data = .ok message ∧
      ∀ s, message = some s ↔ ∃ header rest, header.length = 36 ∧ utf8 s ++ rest ≠ [] ∧
        data = header ++ (toBytes 32 (utf8 s).length ++ (utf8 s ++ rest)) := by
  refine ⟨_, decodeRevertMessage_eq hdata, fun s => ?_⟩
  have hsmall : data.length < 256 ^ 32 := by
    have hpow : b.usize ≤ 2 ^ 64 := Nat.pow_le_pow_right (by decide) hwidth
    have hlarge : (2 : ℕ) ^ 64 < 256 ^ 32 := by decide
    omega
  constructor
  · intro h
    split at h
    · rename_i hin
      obtain ⟨hlong, hlen⟩ := hin
      rw [fromUTF8_eq_some_iff] at h
      have hlength : (utf8 s).length = ofBytes ((data.drop 36).take 32) := by
        rw [h, List.length_take, List.length_drop]
        omega
      have hword : ((data.drop 36).take 32).length = 32 := by
        rw [List.length_take, List.length_drop]
        omega
      refine ⟨data.take 36, data.drop (68 + ofBytes ((data.drop 36).take 32)), ?_, ?_, ?_⟩
      · rw [List.length_take]
        omega
      · intro hnil
        obtain ⟨hempty, hrest⟩ := List.append_eq_nil_iff.mp hnil
        have hzero := congrArg List.length hempty
        have hall := congrArg List.length hrest
        rw [hlength] at hzero
        rw [List.length_drop] at hall
        simp only [List.length_nil] at hzero hall
        omega
      · rw [hlength, toBytes_ofBytes _ hword, h, ← List.drop_drop, List.take_append_drop,
          show data.drop 68 = (data.drop 36).drop 32 by rw [List.drop_drop],
          List.take_append_drop, List.take_append_drop]
    · cases h
  · rintro ⟨header, rest, hheader, hsome, rfl⟩
    have hword : (toBytes 32 (utf8 s).length).length = 32 := length_toBytes ..
    have hnonempty := List.length_pos_iff.mpr hsome
    simp only [List.length_append, hheader, hword] at hsmall hnonempty
    have hlength : ofBytes (((header ++ (toBytes 32 (utf8 s).length ++ (utf8 s ++ rest))).drop
        36).take 32) = (utf8 s).length := by
      rw [List.drop_left' hheader, List.take_left' hword, ofBytes_toBytes,
        Nat.mod_eq_of_lt (by omega)]
    have hbody : (header ++ (toBytes 32 (utf8 s).length ++ (utf8 s ++ rest))).drop 68
        = utf8 s ++ rest := by
      rw [← List.append_assoc]
      exact List.drop_left' (by rw [List.length_append, hheader, hword])
    rw [hlength, hbody, List.take_left, if_pos, fromUTF8_eq_some_iff]
    simp only [List.length_append, hheader, hword]
    omega

/-- An output that says its text is longer than it is has none. -/
theorem decodeRevertMessage_outcome_short :
    let data := List.replicate 67 0 ++ [13, 101, 114, 114]
    ∃ message, decodeRevertMessage ⟨64, by decide, true⟩ data = .ok message ∧
      ∀ s, message = some s ↔ ∃ header rest, header.length = 36 ∧ utf8 s ++ rest ≠ [] ∧
        data = header ++ (toBytes 32 (utf8 s).length ++ (utf8 s ++ rest)) :=
  decodeRevertMessage_outcome (by decide)
    (Build.lt_usize (by simp only [List.length_append, List.length_replicate]; decide))

/-- **The reason that Solidity writes is read**, unless it is empty. -/
theorem decodeRevertMessage_encodeString {selector : List UInt8} (hselector : selector.length = 4)
    (s : String) (hdata : (selector ++ Abi.encodeString (utf8 s)).length < b.usize)
    (hsize : (utf8 s).length < 2 ^ 256) :
    decodeRevertMessage b (selector ++ Abi.encodeString (utf8 s))
      = .ok (if s = "" then none else some s) := by
  have hlength : (selector ++ Abi.encodeString (utf8 s)).length
      = 68 + (utf8 s).length + (32 - (utf8 s).length % 32) % 32 := by
    rw [List.length_append, hselector, Abi.length_encodeString]
    omega
  have hempty : s = "" ↔ (utf8 s).length = 0 := by
    rw [List.length_eq_zero_iff]
    refine ⟨fun h => by rw [h]; rfl, fun h => ?_⟩
    have hdecoded := fromUTF8_eq_some_iff.mpr h
    have hnothing := fromUTF8_eq_some_iff.mpr (show utf8 "" = [] from rfl)
    exact Option.some.inj (hdecoded.symm.trans hnothing)
  have hword : ofBytes (((selector ++ Abi.encodeString (utf8 s)).drop 36).take 32)
      = (utf8 s).length := by
    have hread := Abi.wordAt_encodeString_length hsize
    have hlong := Abi.length_encodeString (utf8 s)
    rw [Abi.wordAt, if_pos (by omega)] at hread
    rw [show (36 : ℕ) = selector.length + 32 by rw [hselector], ← List.drop_drop, List.drop_left]
    exact Option.some.inj hread
  have hbody : ((selector ++ Abi.encodeString (utf8 s)).drop 68).take (utf8 s).length = utf8 s := by
    have hread := Abi.string_encodeString hsize
    rw [Abi.string, Abi.wordAt_encodeString_offset, Option.bind_eq_bind, Option.bind_some,
      Abi.wordAt_encodeString_length hsize, Option.bind_some] at hread
    split at hread
    · rw [show (68 : ℕ) = selector.length + (32 + 32) by rw [hselector], ← List.drop_drop,
        List.drop_left]
      exact Option.some.inj hread
    · cases hread
  rw [decodeRevertMessage_eq hdata, hword, hbody, hlength]
  by_cases hs : s = ""
  · have hzero := hempty.mp hs
    rw [if_pos hs, if_neg (by omega)]
  · have hpos : (utf8 s).length ≠ 0 := fun h => hs (hempty.mpr h)
    rw [if_neg hs, if_pos (by omega), fromUTF8_eq_some_iff.mpr rfl]

/-- **No exit makes the RPC panic**, and the code that makes a search try more gas stands for
running out of gas. -/
theorem errorOnExecutionFailure_outcome (reason : ExitReason) {data : List UInt8}
    (hdata : data.length < b.usize) :
    (errorOnExecutionFailure b reason data = .ok () ∧ reason = .Succeed) ∨
      ∃ e, errorOnExecutionFailure b reason data = fail e ∧ reason ≠ .Succeed ∧
        (e.code = .ServerError 0 ↔ reason = .Error .OutOfGas) := by
  cases reason with
  | Succeed => exact .inl ⟨rfl, rfl⟩
  | Error e =>
      right
      by_cases he : e = .OutOfGas
      · subst he
        exact ⟨_, rfl, nofun, iff_of_true rfl rfl⟩
      · refine ⟨_, if_neg he, nofun, iff_of_false nofun fun h => he ?_⟩
        exact ExitReason.Error.inj h
  | Revert =>
      have herror : ∀ message, decodeRevertMessage b data = .ok message →
          errorOnExecutionFailure b .Revert data = fail ⟨.InternalError,
            message.elim "execution revert" ("execution revert: " ++ ·),
            some ("0x" ++ toHex data)⟩ := by
        intro message hmessage
        rw [errorOnExecutionFailure, hmessage]
        rfl
      exact .inr ⟨_, herror _ (decodeRevertMessage_eq hdata), nofun, iff_of_false nofun nofun⟩
  | Fatal debug => exact .inr ⟨_, rfl, nofun, iff_of_false nofun nofun⟩

end Setheum.EvmRpc
