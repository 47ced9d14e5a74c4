import Mathlib.Data.Nat.Basic
import Mathlib.Tactic.Ring
import Mathlib.Tactic.Linarith

/-!
# Constant-product trades

A pool holds `x` of one asset and `y` of another; a trade adds `n` to the first and takes `n'`
from the second. It is fair to the pool when the product of the two sides does not fall.

* `fair_of_floor` — the target of a supply, rounded down, is fair.
* `fair_of_ceil` — the supply for a target, rounded up, is fair.
* `le_quote_iff` — which supplies buy at least a given target.
* `quote_lt`, `quote_mono`, `quote_split` — a quote is less than the pool, grows with the supply,
  and a supply that is traded in two parts buys no more.
* `fair_both_ways` — two fair trades in opposite directions, both quoted on the same pool, leave
  the pool with at least the product it had.
-/

set_option autoImplicit false

namespace ConstantProduct

/-- The pool can pay, and its product does not fall. -/
def Fair (x y n n' : ℕ) : Prop := n' ≤ y ∧ x * y ≤ (x + n) * (y - n')

theorem fair_zero (x y : ℕ) : Fair x y 0 0 := ⟨Nat.zero_le y, le_refl _⟩

/-- A target of at most `a * y / (x * d + a)` is fair, where `a` is the supply in units of `1 / d`
less a fee. -/
theorem fair_of_floor {x y n n' a d : ℕ} (hpos : 0 < x * d + a) (ha : a ≤ n * d)
    (h : n' * (x * d + a) ≤ a * y) : Fair x y n n' := by
  have hle : n' ≤ y := by
    by_contra hlt
    have hy : y + 1 ≤ n' := by omega
    have hmul : (y + 1) * (x * d + a) ≤ a * y := (Nat.mul_le_mul_right _ hy).trans h
    have hyx : 0 ≤ y * (x * d) := Nat.zero_le _
    linarith
  refine ⟨hle, ?_⟩
  obtain ⟨k, rfl⟩ : ∃ k, y = n' + k := ⟨y - n', by omega⟩
  rw [Nat.add_sub_cancel_left]
  have hd : 0 < d := by
    rcases Nat.eq_zero_or_pos d with rfl | hd
    · simp only [Nat.mul_zero] at ha hpos
      omega
    · exact hd
  -- what is left of the target side is the share `x * d / (x * d + a)` of it
  have hkeep : x * d * (n' + k) ≤ k * (x * d + a) := by linarith
  have hfee : k * (x * d + a) ≤ k * (x * d + n * d) :=
    Nat.mul_le_mul_left k (Nat.add_le_add_left ha _)
  have hscaled : x * (n' + k) * d ≤ (x + n) * k * d := by linarith
  exact Nat.le_of_mul_le_mul_right hscaled hd

/-- A supply of at least `x * n' / (y - n')` is fair. -/
theorem fair_of_ceil {x y n n' : ℕ} (hle : n' ≤ y) (h : x * n' ≤ n * (y - n')) :
    Fair x y n n' := by
  refine ⟨hle, ?_⟩
  obtain ⟨k, rfl⟩ : ∃ k, y = n' + k := ⟨y - n', by omega⟩
  rw [Nat.add_sub_cancel_left] at h ⊢
  linarith

/-- **Two fair trades in opposite directions, both quoted on the pool as it was.** -/
theorem fair_both_ways {x y a b c e : ℕ} (h : Fair x y a b) (h' : Fair y x c e) :
    x * y ≤ (x + a - e) * (y - b + c) := by
  obtain ⟨hb, hab⟩ := h
  obtain ⟨he, hce⟩ := h'
  -- `k` and `l` are what the trades leave of the two sides
  obtain ⟨k, rfl⟩ : ∃ k, x = e + k := ⟨x - e, by omega⟩
  obtain ⟨l, rfl⟩ : ∃ l, y = b + l := ⟨y - b, by omega⟩
  rw [Nat.add_sub_cancel_left] at hab hce ⊢
  have hk : e + k + a - e = k + a := by omega
  rw [hk]
  generalize hX : e + k = X at *
  generalize hY : b + l = Y at *
  rcases Nat.eq_zero_or_pos ((X + a) * (Y + c)) with hzero | hpos
  · -- an empty side, so the product was zero
    have hXY : X * Y ≤ (X + a) * (Y + c) :=
      Nat.mul_le_mul (Nat.le_add_right X a) (Nat.le_add_right Y c)
    omega
  · have hleft : X * Y + a * (Y + c) ≤ (k + a) * (Y + c) := by linarith
    have hright : X * Y + c * (X + a) ≤ (l + c) * (X + a) := by linarith
    have hprod := Nat.mul_le_mul hleft hright
    -- expanding the left factor product leaves `X * Y` times the common denominator
    have hexpand : X * Y * ((X + a) * (Y + c))
        ≤ (X * Y + a * (Y + c)) * (X * Y + c * (X + a)) := by
      have hrest : 0 ≤ a * c * (X * Y + (X + a) * (Y + c)) := Nat.zero_le _
      linarith
    have hscaled : X * Y * ((X + a) * (Y + c)) ≤ (k + a) * (l + c) * ((X + a) * (Y + c)) := by
      linarith
    exact Nat.le_of_mul_le_mul_right hscaled hpos

/-! ## Quotes -/

/-- The target of a supply that is worth `a` after the fee, in units of `1 / d`. -/
def quote (x y a d : ℕ) : ℕ := a * y / (x * d + a)

section Quotes

variable {x y a b d n t : ℕ}

theorem quote_mul_le (x y a d : ℕ) : quote x y a d * (x * d + a) ≤ a * y :=
  Nat.div_mul_le_self ..

/-- Which supplies buy at least `t`. -/
theorem le_quote_iff (hx : 0 < x * d) (ht : t ≤ y) :
    t ≤ quote x y a d ↔ t * (x * d) ≤ a * (y - t) := by
  obtain ⟨k, rfl⟩ : ∃ k, y = t + k := ⟨y - t, by omega⟩
  have hsplit : a * (t + k) = t * a + a * k := by ring
  unfold quote
  rw [Nat.le_div_iff_mul_le (by omega), Nat.add_sub_cancel_left, hsplit, Nat.mul_add]
  omega

theorem quote_lt (hx : 0 < x * d) (hy : 0 < y) : quote x y a d < y := by
  unfold quote
  rw [Nat.div_lt_iff_lt_mul (by omega)]
  have hpos : 0 < y * (x * d) := Nat.mul_pos hy hx
  have hexpand : y * (x * d + a) = y * (x * d) + a * y := by ring
  omega

theorem quote_mono (hx : 0 < x * d) (hab : a ≤ b) : quote x y a d ≤ quote x y b d := by
  have hle : quote x y a d ≤ y := by
    rcases Nat.eq_zero_or_pos y with rfl | hy
    · simp [quote]
    · exact Nat.le_of_lt (quote_lt hx hy)
  rw [le_quote_iff hx hle]
  calc quote x y a d * (x * d)
      ≤ a * (y - quote x y a d) := (le_quote_iff hx hle).mp (Nat.le_refl _)
    _ ≤ b * (y - quote x y a d) := Nat.mul_le_mul_right _ hab

/-- **A supply traded in two parts buys no more.** All of the first part enters the pool, and it is
worth at most itself. -/
theorem quote_split (hx : 0 < x * d) (ha : a ≤ n * d) :
    quote x y a d + quote (x + n) (y - quote x y a d) b d ≤ quote x y (a + b) d := by
  have hfirst := quote_mul_le x y a d
  have hsecond := quote_mul_le (x + n) (y - quote x y a d) b d
  have hle : quote x y a d ≤ y := by
    rcases Nat.eq_zero_or_pos y with rfl | hy
    · simp [quote]
    · exact Nat.le_of_lt (quote_lt hx hy)
  generalize quote x y a d = p at *
  generalize quote (x + n) (y - p) b d = q at *
  obtain ⟨k, rfl⟩ : ∃ k, y = p + k := ⟨y - p, by omega⟩
  rw [Nat.add_sub_cancel_left] at hsecond
  unfold quote
  rw [Nat.le_div_iff_mul_le (by omega)]
  -- the second trade is quoted on a pool that is larger than the fee-free one
  have hfee : q * (x * d + a + b) ≤ q * ((x + n) * d + b) := by
    apply Nat.mul_le_mul_left
    have hexpand : (x + n) * d = x * d + n * d := Nat.add_mul ..
    omega
  calc (p + q) * (x * d + (a + b)) = p * (x * d + a) + p * b + q * (x * d + a + b) := by ring
    _ ≤ a * (p + k) + p * b + b * k := by omega
    _ = (a + b) * (p + k) := by ring

end Quotes

end ConstantProduct
