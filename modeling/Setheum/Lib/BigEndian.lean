import Mathlib.Algebra.Order.Ring.Nat
import Mathlib.Data.List.TakeWhile
import Mathlib.Tactic.Ring

/-!
# Numbers as big-endian bytes

A number below `256 ^ n` is `n` bytes, the most significant one first. This module has the two
conversions, and what slices, prefixes and leading zeros of the bytes are as arithmetic.

* `ofBytes_toBytes`, `toBytes_ofBytes` — the conversions undo each other.
* `toBytes_append` — the first and the last bytes of a number are its quotient and its remainder.
* `prefix_iff` — a number starts with given bytes exactly if its quotient is theirs.
-/

set_option autoImplicit false

namespace BigEndian

/-- The last `n` bytes of a number. -/
def toBytes : ℕ → ℕ → List UInt8
  | 0, _ => []
  | n + 1, x => UInt8.ofNat (x / 256 ^ n) :: toBytes n x

/-- The number that the bytes spell. -/
def ofBytes : List UInt8 → ℕ
  | [] => 0
  | b :: bs => b.toNat * 256 ^ bs.length + ofBytes bs

@[simp] theorem length_toBytes (n x : ℕ) : (toBytes n x).length = n := by
  induction n with
  | zero => rfl
  | succ n ih => rw [toBytes, List.length_cons, ih]

theorem ofBytes_lt (bs : List UInt8) : ofBytes bs < 256 ^ bs.length := by
  induction bs with
  | nil => exact Nat.one_pos
  | cons b bs ih =>
      have hb : b.toNat < 256 := b.toNat_lt
      rw [ofBytes, List.length_cons, Nat.pow_succ, Nat.mul_comm (256 ^ bs.length)]
      calc b.toNat * 256 ^ bs.length + ofBytes bs
          < b.toNat * 256 ^ bs.length + 256 ^ bs.length := by omega
        _ = (b.toNat + 1) * 256 ^ bs.length := by ring
        _ ≤ 256 * 256 ^ bs.length := Nat.mul_le_mul_right _ hb

/-- The bytes of a number are those of its quotient and those of its remainder. -/
theorem toBytes_append (m n x : ℕ) :
    toBytes (m + n) x = toBytes m (x / 256 ^ n) ++ toBytes n x := by
  induction m with
  | zero => rw [Nat.zero_add, toBytes, List.nil_append]
  | succ m ih =>
      rw [Nat.succ_add, toBytes, toBytes, ih, List.cons_append, Nat.div_div_eq_div_mul,
        ← Nat.pow_add, Nat.add_comm n m]

theorem ofBytes_toBytes (n x : ℕ) : ofBytes (toBytes n x) = x % 256 ^ n := by
  induction n with
  | zero => rw [toBytes, ofBytes, Nat.pow_zero, Nat.mod_one]
  | succ n ih =>
      have hbyte : (UInt8.ofNat (x / 256 ^ n)).toNat = x / 256 ^ n % 256 := UInt8.toNat_ofNat'
      rw [toBytes, ofBytes, ih, length_toBytes, hbyte, Nat.pow_succ, Nat.mod_mul, Nat.mul_comm,
        Nat.add_comm]

theorem ofBytes_injective {as bs : List UInt8} (hlength : as.length = bs.length)
    (h : ofBytes as = ofBytes bs) : as = bs := by
  induction as generalizing bs with
  | nil => exact (List.length_eq_zero_iff.mp hlength.symm).symm
  | cons a as ih =>
      cases bs with
      | nil => cases hlength
      | cons b bs =>
          have hlength : as.length = bs.length := Nat.succ.inj hlength
          have has := ofBytes_lt as
          have hbs := ofBytes_lt bs
          rw [ofBytes, ofBytes, hlength] at h
          rw [hlength] at has
          have hpos : 0 < 256 ^ bs.length := Nat.pow_pos (by decide)
          have hhead : a.toNat = b.toNat := by
            have hdiv : (a.toNat * 256 ^ bs.length + ofBytes as) / 256 ^ bs.length
                = (b.toNat * 256 ^ bs.length + ofBytes bs) / 256 ^ bs.length := by rw [h]
            rwa [Nat.mul_comm, Nat.mul_add_div hpos, Nat.div_eq_of_lt has, Nat.mul_comm,
              Nat.mul_add_div hpos, Nat.div_eq_of_lt hbs] at hdiv
          rw [hhead] at h
          rw [UInt8.toNat_inj.mp hhead, ih hlength (Nat.add_left_cancel h)]

theorem toBytes_ofBytes {n : ℕ} (bs : List UInt8) (hn : bs.length = n) :
    toBytes n (ofBytes bs) = bs := by
  refine ofBytes_injective (by rw [length_toBytes, hn]) ?_
  rw [ofBytes_toBytes, ← hn, Nat.mod_eq_of_lt (ofBytes_lt bs)]

theorem toBytes_eq_iff {n x : ℕ} {bs : List UInt8} (hn : bs.length = n) :
    toBytes n x = bs ↔ x % 256 ^ n = ofBytes bs := by
  rw [← ofBytes_toBytes]
  exact ⟨congrArg ofBytes, ofBytes_injective (by rw [length_toBytes, hn])⟩

/-! ## Slices and prefixes -/

theorem take_toBytes (m n x : ℕ) : (toBytes (m + n) x).take m = toBytes m (x / 256 ^ n) := by
  rw [toBytes_append, List.take_left' (length_toBytes ..)]

theorem drop_toBytes (m n x : ℕ) : (toBytes (m + n) x).drop m = toBytes n x := by
  rw [toBytes_append, List.drop_left' (length_toBytes ..)]

/-- A number starts with given bytes exactly if its quotient is the number that these spell. -/
theorem prefix_iff {m : ℕ} {bs : List UInt8} (hm : bs.length = m) (n x : ℕ) :
    bs.isPrefixOf (toBytes (m + n) x) ↔ x / 256 ^ n % 256 ^ m = ofBytes bs := by
  rw [List.isPrefixOf_iff_prefix, List.prefix_iff_eq_take, hm, take_toBytes, eq_comm,
    toBytes_eq_iff hm]

/-! ## Leading zeros -/

def leadingZeros (bs : List UInt8) : ℕ := (bs.takeWhile (· == 0)).length

theorem leadingZeros_cons_zero (bs : List UInt8) :
    leadingZeros (0 :: bs) = leadingZeros bs + 1 := rfl

theorem leadingZeros_cons {b : UInt8} (hb : b ≠ 0) (bs : List UInt8) :
    leadingZeros (b :: bs) = 0 := by
  rw [leadingZeros, List.takeWhile_cons_of_neg (by simpa using hb), List.length_nil]

/-- Leading zeros do not count. -/
theorem ofBytes_drop_zeros {bs : List UInt8} {i : ℕ} (hi : i ≤ leadingZeros bs) :
    ofBytes (bs.drop i) = ofBytes bs := by
  induction bs generalizing i with
  | nil => rw [List.drop_nil]
  | cons b bs ih =>
      by_cases hb : b = 0
      · subst hb
        cases i with
        | zero => rfl
        | succ i =>
            rw [List.drop_succ_cons, ih (Nat.le_of_succ_le_succ hi), ofBytes]
            exact ((congrArg (· + _) (Nat.zero_mul _)).trans (Nat.zero_add _)).symm
      · rw [leadingZeros_cons hb] at hi
        rw [Nat.le_zero.mp hi, List.drop_zero]

/-- After the leading zeros comes a byte that is not zero, or nothing. -/
theorem drop_leadingZeros (bs : List UInt8) (h : leadingZeros bs < bs.length) :
    ∃ b rest, bs.drop (leadingZeros bs) = b :: rest ∧ b ≠ 0 := by
  induction bs with
  | nil => exact absurd h (Nat.not_lt_zero _)
  | cons b bs ih =>
      by_cases hb : b = 0
      · subst hb
        rw [leadingZeros_cons_zero] at h ⊢
        exact ih (Nat.lt_of_succ_lt_succ h)
      · rw [leadingZeros_cons hb]
        exact ⟨b, bs, rfl, hb⟩

/-- A number whose first byte is not zero is large. -/
theorem pow_le_ofBytes_cons {b : UInt8} (hb : b ≠ 0) (bs : List UInt8) :
    256 ^ bs.length ≤ ofBytes (b :: bs) := by
  have hpos : 0 < b.toNat := by
    rw [Nat.pos_iff_ne_zero]
    exact fun h => hb (UInt8.toNat_inj.mp h)
  calc 256 ^ bs.length = 1 * 256 ^ bs.length := (Nat.one_mul _).symm
    _ ≤ b.toNat * 256 ^ bs.length := Nat.mul_le_mul_right _ hpos
    _ ≤ ofBytes (b :: bs) := Nat.le_add_right _ _

end BigEndian
