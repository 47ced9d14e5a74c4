import Mathlib.Data.List.Sort

/-!
# Binary search

A binary search looks at the element in the middle of what is left of a list, and goes on before or
after it. It ends with the index of the element, or with the index where it can be inserted. In a
list in strict order that is an exact membership test, and inserting there is ordered insertion.

* `searchBetween_found` — what the search keeps: all elements before `left` are smaller, and all
  from `right` on are larger.
* `binarySearch_cases` — the outcomes of a search.
-/

set_option autoImplicit false

namespace BinarySearch

variable {α : Type*} [LinearOrder α]

/-- The loop, for `n` passes: what is searched for is at `left` or later and before `right`. -/
def searchBetween (xs : List α) (x : α) : ℕ → ℕ → ℕ → Except ℕ ℕ
  | 0, left, _ => .error left
  | n + 1, left, right =>
      if left < right then
        let mid := left + (right - left) / 2
        match xs[mid]? with
        | none => .error left
        | some y =>
            if y < x then searchBetween xs x n (mid + 1) right
            else if x < y then searchBetween xs x n left mid
            else .ok mid
      else .error left

/-- `binary_search`: where the element is, or where it can be inserted. -/
def binarySearch (xs : List α) (x : α) : Except ℕ ℕ := searchBetween xs x xs.length 0 xs.length

variable {xs : List α} {x : α} {left right n i : ℕ}

/-! ## What a search keeps -/

/-- What is searched for is between two positions, if it is there. -/
structure Between (xs : List α) (x : α) (left right : ℕ) : Prop where
  le : left ≤ right
  le_length : right ≤ xs.length
  before : ∀ y ∈ xs.take left, y < x
  after : ∀ y ∈ xs.drop right, x < y

/-- What an outcome says. -/
def Found (xs : List α) (x : α) : Except ℕ ℕ → Prop
  | .ok i => xs[i]? = some x
  | .error i => Between xs x i i

theorem Between.whole (xs : List α) (x : α) : Between xs x 0 xs.length where
  le := Nat.zero_le _
  le_length := Nat.le_refl _
  before := by simp
  after := by simp

theorem le_of_mem_take (hsorted : xs.Pairwise (· < ·)) {y z : α} (hz : xs[i]? = some z)
    (hy : y ∈ xs.take (i + 1)) : y ≤ z := by
  obtain ⟨hi, rfl⟩ := List.getElem?_eq_some_iff.mp hz
  obtain ⟨j, hj, rfl⟩ := List.mem_take_iff_getElem.mp hy
  rcases Nat.lt_or_eq_of_le (show j ≤ i by omega) with hlt | rfl
  · exact (List.pairwise_iff_getElem.mp hsorted j i _ hi hlt).le
  · exact le_rfl

theorem le_of_mem_drop (hsorted : xs.Pairwise (· < ·)) {y z : α} (hz : xs[i]? = some z)
    (hy : y ∈ xs.drop i) : z ≤ y := by
  obtain ⟨hi, rfl⟩ := List.getElem?_eq_some_iff.mp hz
  obtain ⟨j, hj, rfl⟩ := List.mem_drop_iff_getElem.mp hy
  rcases Nat.eq_zero_or_pos j with rfl | hpos
  · exact le_rfl
  · exact (List.pairwise_iff_getElem.mp hsorted i (i + j) hi (by omega) (by omega)).le

/-- If the middle element is smaller, the search goes on after it. -/
theorem Between.goRight (hsorted : xs.Pairwise (· < ·)) (h : Between xs x left right) {y : α}
    (hlt : i < right) (hget : xs[i]? = some y) (hy : y < x) : Between xs x (i + 1) right where
  le := hlt
  le_length := h.le_length
  before _ hz := lt_of_le_of_lt (le_of_mem_take hsorted hget hz) hy
  after := h.after

/-- If it is larger, the search goes on before it. -/
theorem Between.goLeft (hsorted : xs.Pairwise (· < ·)) (h : Between xs x left right) {y : α}
    (hle : left ≤ i) (hget : xs[i]? = some y) (hy : x < y) : Between xs x left i where
  le := hle
  le_length := (List.getElem?_eq_some_iff.mp hget).1.le
  before := h.before
  after _ hz := lt_of_lt_of_le hy (le_of_mem_drop hsorted hget hz)

/-- **A search finds the element, or where it can be inserted.** -/
theorem searchBetween_found (hsorted : xs.Pairwise (· < ·)) (h : Between xs x left right)
    (hn : right - left ≤ n) : Found xs x (searchBetween xs x n left right) := by
  induction n generalizing left right with
  | zero =>
      obtain rfl : left = right := Nat.le_antisymm h.le (by omega)
      exact h
  | succ n ih =>
      unfold searchBetween
      split
      · rename_i hlt
        have hle := h.le_length
        have hmid : left + (right - left) / 2 < xs.length := by omega
        have hget := List.getElem?_eq_getElem hmid
        simp only [hget]
        split
        · rename_i hy
          exact ih (h.goRight hsorted (by omega) hget hy) (by omega)
        · split
          · rename_i hy hx
            exact ih (h.goLeft hsorted (by omega) hget hx) (by omega)
          · rename_i hy hx
            show xs[_]? = some x
            rw [hget, le_antisymm (not_lt.mp hx) (not_lt.mp hy)]
      · obtain rfl : left = right := Nat.le_antisymm h.le (by omega)
        exact h

/-! ## Insertion -/

theorem orderedInsert_append {before after : List α} (hbefore : ∀ y ∈ before, y < x)
    (hafter : ∀ y ∈ after, x < y) :
    (before ++ after).orderedInsert (· ≤ ·) x = before ++ x :: after := by
  induction before with
  | nil =>
      cases after with
      | nil => rfl
      | cons y after => exact if_pos (hafter y List.mem_cons_self).le
  | cons y before ih =>
      have hy := hbefore y List.mem_cons_self
      rw [List.cons_append, List.orderedInsert_cons, if_neg (not_le.mpr hy),
        ih fun z hz => hbefore z (List.mem_cons_of_mem y hz), List.cons_append]

omit [LinearOrder α] in
theorem insertIdx_length (before after : List α) (x : α) :
    (before ++ after).insertIdx before.length x = before ++ x :: after := by
  induction before with
  | nil => rfl
  | cons y before ih => exact congrArg (y :: ·) ih

theorem Between.insertIdx_eq (h : Between xs x i i) :
    xs.insertIdx i x = xs.orderedInsert (· ≤ ·) x := by
  have hinsert := insertIdx_length (xs.take i) (xs.drop i) x
  rw [List.length_take_of_le h.le_length, ← orderedInsert_append h.before h.after,
    List.take_append_drop] at hinsert
  exact hinsert

theorem Between.not_mem (h : Between xs x i i) : x ∉ xs := by
  rw [← List.take_append_drop i xs, List.mem_append]
  rintro (hmem | hmem)
  · exact lt_irrefl x (h.before x hmem)
  · exact lt_irrefl x (h.after x hmem)

/-- **A search of a list in strict order** finds the element exactly if it is there, and otherwise
the place where ordered insertion puts it. -/
theorem binarySearch_cases (hsorted : xs.Pairwise (· < ·)) (x : α) :
    (x ∈ xs ∧ ∃ i, binarySearch xs x = .ok i) ∨
      (x ∉ xs ∧ ∃ i, binarySearch xs x = .error i ∧
        xs.insertIdx i x = xs.orderedInsert (· ≤ ·) x) := by
  have hfound : Found xs x (binarySearch xs x) :=
    searchBetween_found hsorted (Between.whole xs x) (Nat.le_of_eq (Nat.sub_zero _))
  cases hsearch : binarySearch xs x with
  | ok i =>
      rw [hsearch] at hfound
      exact .inl ⟨List.mem_of_getElem? hfound, i, rfl⟩
  | error i =>
      rw [hsearch] at hfound
      exact .inr ⟨hfound.not_mem, i, rfl, hfound.insertIdx_eq⟩

end BinarySearch
