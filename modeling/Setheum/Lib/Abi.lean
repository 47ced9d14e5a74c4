import Setheum.Lib.BigEndian

/-!
# What a contract returns

The values that bytes denote in the encoding that contracts return them in: words of 32 bytes, and
a string as the position of its length, which its bytes follow.

* `string_encodeString` — the encoding of a string denotes it.
-/

set_option autoImplicit false

namespace Abi

open BigEndian

/-- The word at a position, if there are so many bytes. -/
def wordAt (output : List UInt8) (start : ℕ) : Option ℕ :=
  if start + 32 ≤ output.length then some (ofBytes ((output.drop start).take 32)) else none

/-- A number below `2 ^ bits`. -/
def uint (bits : ℕ) (output : List UInt8) : Option ℕ := do
  let word ← wordAt output 0
  if word < 2 ^ bits then some word else none

def bool (output : List UInt8) : Option Bool :=
  match wordAt output 0 with
  | some 0 => some false
  | some 1 => some true
  | _ => none

/-- The bytes of a string. -/
def string (output : List UInt8) : Option (List UInt8) := do
  let offset ← wordAt output 0
  let length ← wordAt output offset
  if offset + 32 + length ≤ output.length then some ((output.drop (offset + 32)).take length)
  else none

/-- The zeros that fill up the last word of a string. -/
def padding (length : ℕ) : List UInt8 := List.replicate ((32 - length % 32) % 32) 0

/-- The standard encoding of a string that is returned alone. -/
def encodeString (s : List UInt8) : List UInt8 :=
  toBytes 32 32 ++ (toBytes 32 s.length ++ (s ++ padding s.length))

theorem wordAt_zero {output : List UInt8} (h : 32 ≤ output.length) :
    wordAt output 0 = some (ofBytes (output.take 32)) :=
  if_pos (by omega)

theorem wordAt_of_eq {output before after : List UInt8} {start x : ℕ}
    (houtput : output = before ++ (toBytes 32 x ++ after)) (hstart : start = before.length)
    (hx : x < 2 ^ 256) : wordAt output start = some x := by
  subst houtput hstart
  have hlength : (toBytes 32 x).length = 32 := length_toBytes ..
  have hpow : 256 ^ 32 = 2 ^ 256 := by decide
  rw [wordAt, if_pos (by simp only [List.length_append]; omega), List.drop_left,
    List.take_left' hlength, ofBytes_toBytes, hpow, Nat.mod_eq_of_lt hx]

theorem length_encodeString (s : List UInt8) :
    (encodeString s).length = 64 + s.length + (32 - s.length % 32) % 32 := by
  simp only [encodeString, padding, List.length_append, length_toBytes, List.length_replicate]
  omega

/-- The encoding is a number of whole words. -/
theorem length_encodeString_mod (s : List UInt8) : (encodeString s).length % 32 = 0 := by
  rw [length_encodeString]
  omega

theorem wordAt_encodeString_offset (s : List UInt8) : wordAt (encodeString s) 0 = some 32 :=
  wordAt_of_eq (List.nil_append _).symm rfl (by decide)

theorem wordAt_encodeString_length {s : List UInt8} (hs : s.length < 2 ^ 256) :
    wordAt (encodeString s) 32 = some s.length := by
  have hstart : (toBytes 32 32).length = 32 := length_toBytes ..
  rw [encodeString]
  exact wordAt_of_eq rfl hstart.symm hs

/-- **The encoding of a string denotes it.** -/
theorem string_encodeString {s : List UInt8} (hs : s.length < 2 ^ 256) :
    string (encodeString s) = some s := by
  have hlength := length_encodeString s
  have hdrop : (encodeString s).drop (32 + 32) = s ++ padding s.length := by
    rw [encodeString, ← List.append_assoc]
    exact List.drop_left' (by rw [List.length_append, length_toBytes, length_toBytes])
  rw [string, wordAt_encodeString_offset, Option.bind_eq_bind, Option.bind_some,
    wordAt_encodeString_length hs, Option.bind_some, if_pos (by omega), hdrop,
    List.take_left]

end Abi
