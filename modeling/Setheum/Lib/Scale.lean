import Setheum.Lib.BigEndian

/-!
# The SCALE encoding

Numbers of a fixed width are little-endian bytes, the length of a vector is a compact number before
its elements, the fields of a record follow each other, and an enumeration starts with the index of
its variant. A `Codec` is an encoder with a decoder that reads the encoded value back, whatever
bytes follow it.

* `readCompact_compact` — a compact number below `2 ^ 32` is read back.
* `length_compact_le` — it takes five bytes at most.
* `readCompact_take_vec` — so the first five bytes of a vector tell how long it is.
-/

set_option autoImplicit false

namespace Scale

variable {α β : Type}

/-! ## Numbers -/

/-- A number as `n` bytes, the least significant one first. -/
def littleEndian : ℕ → ℕ → List UInt8
  | 0, _ => []
  | n + 1, x => UInt8.ofNat x :: littleEndian n (x / 256)

/-- The number in the next `n` bytes, and the bytes behind them. -/
def readLittleEndian : ℕ → List UInt8 → Option (ℕ × List UInt8)
  | 0, bs => some (0, bs)
  | _ + 1, [] => none
  | n + 1, b :: bs => do
      let (x, rest) ← readLittleEndian n bs
      some (b.toNat + 256 * x, rest)

@[simp] theorem length_littleEndian (n x : ℕ) : (littleEndian n x).length = n := by
  induction n generalizing x with
  | zero => rfl
  | succ n ih => rw [littleEndian, List.length_cons, ih]

theorem readLittleEndian_append {n x : ℕ} (hx : x < 256 ^ n) (rest : List UInt8) :
    readLittleEndian n (littleEndian n x ++ rest) = some (x, rest) := by
  induction n generalizing x with
  | zero =>
      have hzero : x = 0 := by simpa using hx
      rw [hzero, littleEndian, readLittleEndian, List.nil_append]
  | succ n ih =>
      have hquotient : x / 256 < 256 ^ n := by
        rw [Nat.div_lt_iff_lt_mul (by decide)]
        exact hx
      have hdigits : x % 256 + 256 * (x / 256) = x := Nat.mod_add_div x 256
      rw [littleEndian, List.cons_append, readLittleEndian, ih hquotient, UInt8.toNat_ofNat']
      exact congrArg (fun y => some (y, rest)) hdigits

/-- A compact number: its two lowest bits tell how many bytes it takes. -/
def compact (n : ℕ) : List UInt8 :=
  if n < 2 ^ 6 then littleEndian 1 (4 * n)
  else if n < 2 ^ 14 then littleEndian 2 (4 * n + 1)
  else if n < 2 ^ 30 then littleEndian 4 (4 * n + 2)
  else 3 :: littleEndian 4 n

/-- The number, unless a shorter form has it. -/
def atLeast (low n : ℕ) (rest : List UInt8) : Option (ℕ × List UInt8) :=
  if low ≤ n then some (n, rest) else none

/-- Read a compact number from the bytes that also hold its two lowest bits. -/
def readMarked (width low : ℕ) (bs : List UInt8) : Option (ℕ × List UInt8) := do
  let (x, rest) ← readLittleEndian width bs
  atLeast low (x / 4) rest

/-- Read a compact number of 32 bits. -/
def readCompact : List UInt8 → Option (ℕ × List UInt8)
  | [] => none
  | b :: bs =>
      match b.toNat % 4 with
      | 0 => some (b.toNat / 4, bs)
      | 1 => readMarked 2 (2 ^ 6) (b :: bs)
      | 2 => readMarked 4 (2 ^ 14) (b :: bs)
      | _ =>
          -- the upper bits would be those of a longer number
          if b.toNat / 4 = 0 then do
            let (x, rest) ← readLittleEndian 4 bs
            atLeast (2 ^ 30) x rest
          else none

theorem length_compact_le (n : ℕ) : (compact n).length ≤ 5 := by
  unfold compact
  split
  · rw [length_littleEndian]
    decide
  · split
    · rw [length_littleEndian]
      decide
    · split
      · rw [length_littleEndian]
        decide
      · rw [List.length_cons, length_littleEndian]

/-- The two lowest bits of a number are those of its first byte. -/
theorem mode_ofNat (x : ℕ) : (UInt8.ofNat x).toNat % 4 = x % 4 := by
  rw [UInt8.toNat_ofNat', Nat.mod_mod_of_dvd x (by decide)]

theorem readMarked_append {width low mode n : ℕ} (hmode : mode < 4)
    (hwidth : 4 * n + mode < 256 ^ width) (hlow : low ≤ n) (rest : List UInt8) :
    readMarked width low (littleEndian width (4 * n + mode) ++ rest) = some (n, rest) := by
  have hread : readLittleEndian width (littleEndian width (4 * n + mode) ++ rest)
      = some (4 * n + mode, rest) := readLittleEndian_append hwidth rest
  have hquarter : (4 * n + mode) / 4 = n := by omega
  rw [readMarked, hread]
  change atLeast low ((4 * n + mode) / 4) rest = some (n, rest)
  rw [hquarter, atLeast, if_pos hlow]

theorem readCompact_compact {n : ℕ} (hn : n < 2 ^ 32) (rest : List UInt8) :
    readCompact (compact n ++ rest) = some (n, rest) := by
  unfold compact
  split
  next hone =>
      have hmode : (UInt8.ofNat (4 * n)).toNat % 4 = 0 := by rw [mode_ofNat]; omega
      have hbyte : (UInt8.ofNat (4 * n)).toNat / 4 = n := by rw [UInt8.toNat_ofNat']; omega
      simp only [littleEndian, List.cons_append, List.nil_append, readCompact, hmode, hbyte]
  next hone =>
      split
      next htwo =>
          have hmode : (UInt8.ofNat (4 * n + 1)).toNat % 4 = 1 := by rw [mode_ofNat]; omega
          simp only [littleEndian, List.cons_append, readCompact, hmode]
          exact readMarked_append (by decide) (by omega) (by omega) rest
      next htwo =>
          split
          next hfour =>
              have hmode : (UInt8.ofNat (4 * n + 2)).toNat % 4 = 2 := by rw [mode_ofNat]; omega
              simp only [littleEndian, List.cons_append, readCompact, hmode]
              exact readMarked_append (by decide) (by omega) (by omega) rest
          next hfour =>
              have hread : readLittleEndian 4 (littleEndian 4 n ++ rest) = some (n, rest) :=
                readLittleEndian_append (by omega) rest
              change (do
                let (x, rest) ← readLittleEndian 4 (littleEndian 4 n ++ rest)
                atLeast (2 ^ 30) x rest) = some (n, rest)
              rw [hread]
              exact if_pos (by omega)

/-! ## Codecs -/

/-- An encoding of values, with a decoder that reads what was encoded and leaves the rest. -/
structure Codec (α : Type) where
  /-- The values that have an encoding. -/
  Valid : α → Prop
  encode : α → List UInt8
  decode : List UInt8 → Option (α × List UInt8)
  decode_encode : ∀ {a : α}, Valid a → ∀ rest : List UInt8,
    decode (encode a ++ rest) = some (a, rest)

namespace Codec

/-- The value that the bytes of an entry decode to, if there is an entry. -/
def decodeEntry (c : Codec α) (entry : Option (List UInt8)) : Option α := do
  let bs ← entry
  (c.decode bs).map Prod.fst

theorem decodeEntry_encode (c : Codec α) {o : Option α} (ho : ∀ a ∈ o, c.Valid a) :
    c.decodeEntry (o.map c.encode) = o := by
  cases o with
  | none => rfl
  | some a =>
      have hread : c.decode (c.encode a ++ []) = some (a, []) := c.decode_encode (ho a rfl) []
      rw [List.append_nil] at hread
      change (c.decode (c.encode a)).map Prod.fst = some a
      rw [hread, Option.map_some]

/-- Read a value as the field of a variant. -/
def decodeAs (c : Codec α) (f : α → β) (bs : List UInt8) : Option (β × List UInt8) :=
  (c.decode bs).map (Prod.map f id)

theorem decodeAs_encode (c : Codec α) (f : α → β) {a : α} (ha : c.Valid a) (rest : List UInt8) :
    c.decodeAs f (c.encode a ++ rest) = some (f a, rest) := by
  rw [decodeAs, c.decode_encode ha]
  rfl

/-- An unsigned integer of `n` bytes. -/
def uint (n : ℕ) : Codec ℕ where
  Valid x := x < 256 ^ n
  encode := littleEndian n
  decode := readLittleEndian n
  decode_encode := readLittleEndian_append

/-- A string of `n` bytes. -/
def bytes (n : ℕ) : Codec (List UInt8) where
  Valid bs := bs.length = n
  encode bs := bs
  decode bs := if n ≤ bs.length then some (bs.take n, bs.drop n) else none
  decode_encode := by
    rintro bs rfl rest
    rw [if_pos (by simp only [List.length_append]; omega), List.take_left, List.drop_left]

/-- A value that is encoded as another one. -/
def map (c : Codec α) (Valid : β → Prop) (f : α → β) (g : β → α)
    (h : ∀ {b : β}, Valid b → c.Valid (g b) ∧ f (g b) = b) : Codec β where
  Valid := Valid
  encode b := c.encode (g b)
  decode := c.decodeAs f
  decode_encode := by
    intro b hb rest
    obtain ⟨hvalid, hback⟩ := h hb
    rw [c.decodeAs_encode f hvalid, hback]

/-- A word of `n` bytes, the most significant one first. -/
def word (n : ℕ) : Codec (BitVec (8 * n)) :=
  (bytes n).map (fun _ => True) (fun bs => BitVec.ofNat (8 * n) (BigEndian.ofBytes bs))
    (fun x => BigEndian.toBytes n x.toNat)
    (by
      intro x _
      have hlt : x.toNat < 256 ^ n := by
        have hpow : (256 : ℕ) ^ n = 2 ^ (8 * n) := (Nat.pow_mul 2 8 n).symm
        rw [hpow]
        exact x.isLt
      refine ⟨BigEndian.length_toBytes n x.toNat, ?_⟩
      rw [BigEndian.ofBytes_toBytes, Nat.mod_eq_of_lt hlt, BitVec.ofNat_toNat, BitVec.setWidth_eq])

/-- One value after another. -/
def prod (c : Codec α) (d : Codec β) : Codec (α × β) where
  Valid ab := c.Valid ab.1 ∧ d.Valid ab.2
  encode ab := c.encode ab.1 ++ d.encode ab.2
  decode bs := do
    let (a, rest) ← c.decode bs
    let (b, rest) ← d.decode rest
    some ((a, b), rest)
  decode_encode := by
    rintro ⟨a, b⟩ ⟨ha, hb⟩ rest
    rw [List.append_assoc, c.decode_encode ha]
    change (do
      let (b, rest) ← d.decode (d.encode b ++ rest)
      some ((a, b), rest)) = some ((a, b), rest)
    rw [d.decode_encode hb]
    rfl

/-- An enumeration: the index of the variant and then its fields. -/
def enum (Valid : α → Prop) (index : α → UInt8) (fields : α → List UInt8)
    (read : UInt8 → List UInt8 → Option (α × List UInt8))
    (h : ∀ {a : α}, Valid a → ∀ rest, read (index a) (fields a ++ rest) = some (a, rest)) :
    Codec α where
  Valid := Valid
  encode a := index a :: fields a
  decode
    | [] => none
    | i :: bs => read i bs
  decode_encode := h

/-- An optional value. -/
def option (c : Codec α) : Codec (Option α) :=
  enum (fun o => ∀ a ∈ o, c.Valid a) (fun o => if o.isSome then 1 else 0)
    (fun o => (o.map c.encode).getD [])
    (fun i bs =>
      if i = 0 then some (none, bs)
      else if i = 1 then c.decodeAs some bs
      else none)
    (by
      intro o ho rest
      cases o with
      | none => rfl
      | some a => exact c.decodeAs_encode some (ho a rfl) rest)

/-- Read as many values as the number says. -/
def readMany (c : Codec α) : ℕ → List UInt8 → Option (List α × List UInt8)
  | 0, bs => some ([], bs)
  | n + 1, bs => do
      let (a, rest) ← c.decode bs
      let (l, rest) ← c.readMany n rest
      some (a :: l, rest)

theorem readMany_flatMap (c : Codec α) {l : List α} (hl : ∀ a ∈ l, c.Valid a)
    (rest : List UInt8) :
    c.readMany l.length (l.flatMap c.encode ++ rest) = some (l, rest) := by
  induction l with
  | nil => rfl
  | cons a l ih =>
      have ha : c.Valid a := hl a List.mem_cons_self
      have ih := ih fun b hb => hl b (List.mem_cons_of_mem a hb)
      rw [List.length_cons, List.flatMap_cons, List.append_assoc, readMany, c.decode_encode ha]
      change (do
        let (l, rest) ← c.readMany l.length (l.flatMap c.encode ++ rest)
        some (a :: l, rest)) = some (a :: l, rest)
      rw [ih]
      rfl

/-- A vector: its length as a compact number and then its elements. -/
def vec (c : Codec α) : Codec (List α) where
  Valid l := l.length < 2 ^ 32 ∧ ∀ a ∈ l, c.Valid a
  encode l := compact l.length ++ l.flatMap c.encode
  decode bs := do
    let (n, rest) ← readCompact bs
    c.readMany n rest
  decode_encode := by
    rintro l ⟨hlength, hl⟩ rest
    rw [List.append_assoc, readCompact_compact hlength]
    exact c.readMany_flatMap hl rest

end Codec

/-! ## Reading the start of a value -/

/-- Five bytes tell how long the vector is that the input starts with. -/
theorem readCompact_take_vec (c : Codec α) {l : List α} (hlength : l.length < 2 ^ 32)
    (rest : List UInt8) {k : ℕ} (hk : 5 ≤ k) :
    (readCompact ((c.vec.encode l ++ rest).take k)).map Prod.fst = some l.length := by
  have hbytes : (compact l.length).length ≤ k := (length_compact_le l.length).trans hk
  have htake : (c.vec.encode l ++ rest).take k = compact l.length
      ++ (l.flatMap c.encode ++ rest).take (k - (compact l.length).length) := by
    rw [Codec.vec, List.append_assoc, List.take_append, List.take_of_length_le hbytes]
  rw [htake, readCompact_compact hlength, Option.map_some]

end Scale
