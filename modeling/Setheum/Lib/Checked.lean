import Mathlib.Algebra.Order.Ring.Nat

/-!
# Machine arithmetic, and functions that may panic

A function of the source returns a value or an error, or it panics. What an operation does when its
result does not fit the type depends on how the program was built: with overflow checks it panics,
without them the result wraps around. A `Build` says which, and how wide a pointer is.

A function that reads a value can be compared with the value that is there, if any is: it `Answers`
if it returns that value, and an error if there is none. It is `Sound` if it returns no other value
and does not panic, though it may refuse.

* `Build.fit_of_lt`, `Build.fit_of_le` — a result that fits, and one that does not.
-/

set_option autoImplicit false

namespace Checked

/-- Why a function returns no value. -/
inductive Failure (ε : Type)
  | error (e : ε)
  | panic
  deriving DecidableEq, Repr

end Checked

/-- The outcome of a function that may fail or panic. -/
abbrev Checked (ε α : Type) := Except (Checked.Failure ε) α

namespace Checked

variable {ε α β : Type}

def fail (e : ε) : Checked ε α := .error (.error e)

def panicked : Checked ε α := .error .panic

/-- Fail with `e` unless the condition holds. -/
def ensure (p : Prop) [Decidable p] (e : ε) : Checked ε Unit := if p then .ok () else fail e

def okOr (o : Option α) (e : ε) : Checked ε α := o.elim (fail e) .ok

@[simp] theorem ok_bind (a : α) (f : α → Checked ε β) :
    ((.ok a : Checked ε α) >>= f) = f a := rfl

@[simp] theorem panicked_bind (f : α → Checked ε β) :
    ((panicked : Checked ε α) >>= f) = panicked := rfl

theorem of_bind_eq_ok {x : Checked ε α} {f : α → Checked ε β} {b : β} (h : (x >>= f) = .ok b) :
    ∃ a, x = .ok a ∧ f a = .ok b := by
  cases x with
  | error e => cases h
  | ok a => exact ⟨a, rfl, h⟩

theorem bind_eq_ok_iff {x : Checked ε α} {f : α → Checked ε β} {b : β} :
    (x >>= f) = .ok b ↔ ∃ a, x = .ok a ∧ f a = .ok b := by
  constructor
  · exact of_bind_eq_ok
  · rintro ⟨a, rfl, h⟩
    exact h

theorem pure_eq_ok_iff {a a' : α} : (pure a : Checked ε α) = .ok a' ↔ a = a' :=
  ⟨fun h => Except.ok.inj h, fun h => by rw [h]; rfl⟩

theorem okOr_eq_ok_iff {o : Option α} {e : ε} {a : α} : okOr o e = .ok a ↔ o = some a := by
  cases o with
  | none => exact iff_of_false nofun nofun
  | some a' => exact ⟨fun h => by cases h; rfl, fun h => by cases h; rfl⟩

theorem ensure_bind {p : Prop} [Decidable p] {e : ε} {f : Unit → Checked ε β} :
    (ensure p e >>= f) = if p then f () else fail e := by
  unfold ensure
  split <;> rfl

theorem of_ensure_eq_ok {p : Prop} [Decidable p] {e : ε} {u : Unit} (h : ensure p e = .ok u) :
    p := by
  unfold ensure at h
  split at h
  · assumption
  · cases h

/-- The function returns, with a value or with one of these errors. -/
def Refuses (errors : List ε) (x : Checked ε α) : Prop :=
  ∀ failure, x = .error failure → ∃ e ∈ errors, failure = .error e

section Refusing

variable {errors : List ε}

theorem ok_refuses (a : α) : Refuses errors (.ok a : Checked ε α) := nofun

theorem okOr_refuses (o : Option α) {e : ε} (he : e ∈ errors) : Refuses errors (okOr o e) := by
  cases o with
  | none =>
      rintro failure h
      cases h
      exact ⟨e, he, rfl⟩
  | some a => exact ok_refuses a

theorem ensure_refuses {p : Prop} [Decidable p] {e : ε} (he : e ∈ errors) :
    Refuses errors (ensure p e) := by
  unfold ensure
  split
  · exact ok_refuses ()
  · rintro failure h
    cases h
    exact ⟨e, he, rfl⟩

theorem Refuses.bind {x : Checked ε α} {f : α → Checked ε β} (hx : Refuses errors x)
    (hf : ∀ a, x = .ok a → Refuses errors (f a)) : Refuses errors (x >>= f) := by
  cases x with
  | error failure =>
      rintro failure' h
      cases h
      exact hx failure rfl
  | ok a => exact hf a rfl

end Refusing

/-! ## Machine arithmetic -/

/-- A division, which panics on zero however the program was built. -/
def div (x y : ℕ) : Checked ε ℕ := if y = 0 then panicked else .ok (x / y)

/-- How a program was built. -/
structure Build where
  /-- The width of a pointer. -/
  pointerBits : ℕ
  pointerBits_ge : 32 ≤ pointerBits
  overflowChecks : Bool

namespace Build

variable (b : Build)

/-- One more than the largest index. -/
def usize : ℕ := 2 ^ b.pointerBits

/-- A result that may not fit below `size`. -/
def fit (size n : ℕ) : Checked ε ℕ :=
  if n < size then .ok n else if b.overflowChecks then panicked else .ok (n % size)

def add (size x y : ℕ) : Checked ε ℕ := b.fit size (x + y)

def mul (size x y : ℕ) : Checked ε ℕ := b.fit size (x * y)

/-- `x - y`, for numbers below `size`. -/
def sub (size x y : ℕ) : Checked ε ℕ :=
  if y ≤ x then .ok (x - y) else if b.overflowChecks then panicked else .ok (size + x - y)

/-- A larger number as an index. -/
def asUsize (n : ℕ) : Checked ε ℕ := if n < b.usize then .ok n else panicked

variable {b}

theorem fit_of_lt {size n : ℕ} (h : n < size) : (b.fit size n : Checked ε ℕ) = .ok n := if_pos h

theorem fit_of_le {size n : ℕ} (h : size ≤ n) :
    (b.fit size n : Checked ε ℕ) = if b.overflowChecks then panicked else .ok (n % size) :=
  if_neg (by omega)

/-- Without overflow checks every result wraps around. -/
theorem fit_of_unchecked {size n : ℕ} (h : b.overflowChecks = false) :
    (b.fit size n : Checked ε ℕ) = .ok (n % size) := by
  unfold fit
  split
  · rename_i hlt
    rw [Nat.mod_eq_of_lt hlt]
  · rw [h]
    rfl

theorem sub_of_le {size x y : ℕ} (h : y ≤ x) : (b.sub size x y : Checked ε ℕ) = .ok (x - y) :=
  if_pos h

/-- A difference below zero. -/
theorem sub_of_lt {size x y : ℕ} (h : x < y) :
    (b.sub size x y : Checked ε ℕ) =
      if b.overflowChecks then panicked else .ok (size + x - y) :=
  if_neg (by omega)

theorem usize_pos (b : Build) : 0 < b.usize := Nat.two_pow_pos _

/-- A number of 32 bits is an index. -/
theorem lt_usize {n : ℕ} (h : n < 2 ^ 32) : n < b.usize :=
  lt_of_lt_of_le h (Nat.pow_le_pow_right (by decide) b.pointerBits_ge)

end Build

/-! ## Slices -/

/-- `&bytes[start..stop]`. -/
def slice (bytes : List α) (start stop : ℕ) : Checked ε (List α) :=
  if start ≤ stop ∧ stop ≤ bytes.length then .ok ((bytes.drop start).take (stop - start))
  else panicked

/-- `&bytes[start..]`. -/
def sliceFrom (bytes : List α) (start : ℕ) : Checked ε (List α) :=
  if start ≤ bytes.length then .ok (bytes.drop start) else panicked

/-- `copy_from_slice` into `n` elements. -/
def copyFromSlice (n : ℕ) (source : List α) : Checked ε (List α) :=
  if source.length = n then .ok source else panicked

section Ranges

variable {b : Build} {xs : List α} {start n : ℕ}

theorem slice_of_lt {stop : ℕ} (h : stop < start) :
    (slice xs start stop : Checked ε (List α)) = panicked :=
  if_neg fun hin => by omega

variable (ε) in
/-- The end of a range that does not fit an index is before its start, or a panic. -/
theorem add_of_wraps (hstart : start < b.usize) (hn : n < b.usize)
    (hover : b.usize ≤ start + n) :
    (b.add b.usize start n : Checked ε ℕ) = panicked ∨
      ∃ stop < start, (b.add b.usize start n : Checked ε ℕ) = .ok stop := by
  rw [Build.add, Build.fit_of_le hover]
  cases b.overflowChecks with
  | true => exact .inl rfl
  | false =>
      refine .inr ⟨(start + n) % b.usize, ?_, rfl⟩
      rw [Nat.mod_eq_sub_mod hover, Nat.mod_eq_of_lt (by omega)]
      omega

/-- A range with a computed end is in bounds, or a panic. -/
theorem add_slice (hstart : start < b.usize) (hn : n < b.usize) :
    (b.add b.usize start n >>= fun stop => slice xs start stop : Checked ε (List α)) =
      if start + n < b.usize ∧ start + n ≤ xs.length then .ok ((xs.drop start).take n)
      else panicked := by
  by_cases hfits : start + n < b.usize
  · rw [Build.add, Build.fit_of_lt hfits]
    show slice xs start (start + n) = _
    unfold slice
    by_cases hin : start + n ≤ xs.length
    · rw [if_pos ⟨by omega, hin⟩, if_pos ⟨hfits, hin⟩, Nat.add_sub_cancel_left]
    · rw [if_neg fun h => hin h.2, if_neg fun h => hin h.2]
  · rw [if_neg fun h => hfits h.1]
    obtain hpanic | ⟨stop, hstop, hadd⟩ := add_of_wraps ε hstart hn (by omega)
    · rw [hpanic]
      rfl
    · rw [hadd]
      exact slice_of_lt hstop

/-- Where the end is checked before, it is refused when it is out of bounds, but not when it does
not fit an index. -/
theorem add_ensure_slice (hstart : start < b.usize) (hn : n < b.usize) (hin : start ≤ xs.length)
    (e : ε) :
    (b.add b.usize start n >>= fun stop => ensure (stop ≤ xs.length) e >>= fun _ =>
        slice xs start stop : Checked ε (List α)) =
      if start + n < b.usize then
        if start + n ≤ xs.length then .ok ((xs.drop start).take n) else fail e
      else panicked := by
  by_cases hfits : start + n < b.usize
  · rw [Build.add, Build.fit_of_lt hfits, if_pos hfits]
    show (ensure (start + n ≤ xs.length) e >>= fun _ => slice xs start (start + n)) = _
    unfold ensure slice
    by_cases hstop : start + n ≤ xs.length
    · rw [if_pos hstop, if_pos hstop, if_pos ⟨by omega, hstop⟩, Nat.add_sub_cancel_left]
      rfl
    · rw [if_neg hstop, if_neg hstop]
      rfl
  · rw [if_neg hfits]
    obtain hpanic | ⟨stop, hstop, hadd⟩ := add_of_wraps ε hstart hn (by omega)
    · rw [hpanic]
      rfl
    · rw [hadd]
      show (ensure (stop ≤ xs.length) e >>= fun _ => slice xs start stop) = _
      rw [ensure, if_pos (by omega)]
      exact slice_of_lt hstop

end Ranges

/-! ## Functions that read a value -/

/-- The value that is there is returned, or else an error. -/
def Answers (x : Checked ε α) (value : Option α) : Prop :=
  match value with
  | some a => x = .ok a
  | none => ∃ e, x = .error (.error e)

/-- No other value than the one that is there is returned. -/
def Sound (x : Checked ε α) (value : Option α) : Prop :=
  match x with
  | .ok a => value = some a
  | .error (.error _) => True
  | .error .panic => False

@[simp] theorem answers_ok {a : α} {value : Option α} :
    Answers (.ok a : Checked ε α) value ↔ value = some a := by
  cases value with
  | none => simp [Answers]
  | some a' => simp [Answers, eq_comm]

@[simp] theorem answers_fail {e : ε} {value : Option α} :
    Answers (fail e : Checked ε α) value ↔ value = none := by
  cases value with
  | none => simp [Answers, fail]
  | some a => simp [Answers, fail]

@[simp] theorem answers_panicked {value : Option α} :
    Answers (panicked : Checked ε α) value ↔ False := by
  cases value with
  | none => simp [Answers, panicked]
  | some a => simp [Answers, panicked]

@[simp] theorem sound_ok {a : α} {value : Option α} :
    Sound (.ok a : Checked ε α) value ↔ value = some a := Iff.rfl

@[simp] theorem sound_fail {e : ε} {value : Option α} :
    Sound (fail e : Checked ε α) value ↔ True := Iff.rfl

@[simp] theorem sound_panicked {value : Option α} :
    Sound (panicked : Checked ε α) value ↔ False := Iff.rfl

theorem answers_okOr_iff {o value : Option α} {e : ε} : Answers (okOr o e) value ↔ value = o := by
  cases o with
  | none => exact answers_fail
  | some a => exact answers_ok

theorem Answers.sound {x : Checked ε α} {value : Option α} (h : Answers x value) :
    Sound x value := by
  cases value with
  | none =>
      obtain ⟨e, rfl⟩ := h
      trivial
  | some a =>
      obtain rfl : x = .ok a := h
      rfl

theorem Answers.ok_iff {x : Checked ε α} {value : Option α} {a : α} (h : Answers x value) :
    x = .ok a ↔ value = some a := by
  cases value with
  | none =>
      obtain ⟨e, rfl⟩ := h
      exact iff_of_false nofun nofun
  | some a' =>
      obtain rfl : x = .ok a' := h
      exact ⟨fun h => by cases h; rfl, fun h => by cases h; rfl⟩

theorem Sound.eq_of_ok {x : Checked ε α} {a : α} {value : Option α} (h : Sound x value)
    (hx : x = .ok a) : value = some a := by
  rwa [hx] at h

theorem Sound.ne_panicked {x : Checked ε α} {value : Option α} (h : Sound x value) :
    x ≠ panicked := by
  rintro rfl
  exact h

end Checked
