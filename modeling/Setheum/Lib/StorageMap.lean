import Mathlib.Data.List.AList
import Mathlib.Algebra.BigOperators.Group.List.Basic
import Mathlib.Algebra.Order.BigOperators.Group.List
import Mathlib.Algebra.Order.Ring.Nat

/-!
# Finite storage maps and sums over them

A storage map is Mathlib's `AList` with a constant value type. This module adds what an
accounting argument over such a map needs: reading with a default value, removing every entry
whose key satisfies a predicate, and the sum `sumBy f` of a weight over all entries, with one
equation for each update.

* `sumBy_insert`, `sumBy_insert_add` — inserting at `k` replaces the weight held at `k`.
* `sumBy_erase_add` — erasing `k` removes the weight held at `k`.
* `sumBy_partition` — a predicate on keys splits the sum in two.
* `weightAt_le_sumBy` — no single entry outweighs the whole map.
* `Mirrors` — two maps that are inverse to each other, with what inserts and erases a pair.
-/

set_option autoImplicit false

namespace StorageMap

/-- A finite map with at most one value at each key. -/
abbrev Map (κ ν : Type*) := AList fun _ : κ => ν

variable {κ ν M : Type*}

section Get

variable [DecidableEq κ]

/-- The value at `k`, or the default `d` when there is none. -/
def get (d : ν) (m : Map κ ν) (k : κ) : ν := (m.lookup k).getD d

@[simp] theorem get_empty (d : ν) (k : κ) : get d (∅ : Map κ ν) k = d := rfl

@[simp] theorem get_insert (d : ν) (m : Map κ ν) (k : κ) (v : ν) :
    get d (m.insert k v) k = v := by
  simp [get]

theorem get_insert_ne (d : ν) (m : Map κ ν) {k k' : κ} (v : ν) (h : k' ≠ k) :
    get d (m.insert k v) k' = get d m k' := by
  simp [get, AList.lookup_insert_ne h]

@[simp] theorem get_erase (d : ν) (m : Map κ ν) (k : κ) : get d (m.erase k) k = d := by
  simp [get]

theorem get_erase_ne (d : ν) (m : Map κ ν) {k k' : κ} (h : k' ≠ k) :
    get d (m.erase k) k' = get d m k' := by
  simp [get, AList.lookup_erase_ne h]

variable [DecidableEq ν]

/-- Store a value, or remove the entry when the value is the default. -/
def store (d : ν) (m : Map κ ν) (k : κ) (v : ν) : Map κ ν :=
  if v = d then m.erase k else m.insert k v

@[simp] theorem get_store (d : ν) (m : Map κ ν) (k : κ) (v : ν) :
    get d (store d m k v) k = v := by
  unfold store
  split
  · rename_i hv
    rw [get_erase, hv]
  · rw [get_insert]

theorem lookup_store_ne (d : ν) (m : Map κ ν) {k k' : κ} (v : ν) (h : k' ≠ k) :
    (store d m k v).lookup k' = m.lookup k' := by
  unfold store
  split
  · exact AList.lookup_erase_ne h
  · exact AList.lookup_insert_ne h

theorem get_store_ne (d : ν) (m : Map κ ν) {k k' : κ} (v : ν) (h : k' ≠ k) :
    get d (store d m k v) k' = get d m k' := by
  unfold get
  rw [lookup_store_ne d m v h]

theorem lookup_store_self (d : ν) (m : Map κ ν) (k : κ) (v : ν) :
    (store d m k v).lookup k = if v = d then none else some v := by
  unfold store
  split
  · exact AList.lookup_erase k m
  · exact AList.lookup_insert m

end Get

/-! ## Weighted sums -/

section Sum

variable [AddCommMonoid M] (f : κ → ν → M)

/-- The sum of the weight `f key value` over all entries. -/
def sumBy (m : Map κ ν) : M := (m.entries.map fun e => f e.1 e.2).sum

@[simp] theorem sumBy_empty : sumBy f (∅ : Map κ ν) = 0 := rfl

/-- Two maps that hold the same weight at every entry have the same sum. -/
theorem sumBy_congr {f g : κ → ν → M} {m : Map κ ν}
    (h : ∀ e ∈ m.entries, f e.1 e.2 = g e.1 e.2) : sumBy f m = sumBy g m := by
  unfold sumBy
  rw [List.map_congr_left h]

/-- A map in which every entry weighs nothing sums to zero. -/
theorem sumBy_eq_zero {m : Map κ ν} (h : ∀ e ∈ m.entries, f e.1 e.2 = 0) : sumBy f m = 0 :=
  List.sum_eq_zero fun x hx => by
    obtain ⟨e, he, rfl⟩ := List.mem_map.mp hx
    exact h e he

variable [DecidableEq κ]

/-- The weight held at one key, zero when the key is absent. -/
def weightAt (m : Map κ ν) (k : κ) : M := (m.lookup k).elim 0 (f k)

theorem weightAt_of_lookup {m : Map κ ν} {k : κ} {v : ν} (h : m.lookup k = some v) :
    weightAt f m k = f k v := by
  simp [weightAt, h]

theorem weightAt_of_notMem {m : Map κ ν} {k : κ} (h : m.lookup k = none) :
    weightAt f m k = 0 := by
  simp [weightAt, h]

/-- Reading through a default of weight zero gives the weight held at the key. -/
theorem weightAt_eq_get (m : Map κ ν) (k : κ) {d : ν} (hd : f k d = 0) :
    weightAt f m k = f k (get d m k) := by
  unfold weightAt get
  cases m.lookup k with
  | none => simp [hd]
  | some v => rfl

private theorem sum_kerase_add (k : κ) (l : List (Sigma fun _ : κ => ν)) :
    ((l.kerase k).map fun e => f e.1 e.2).sum + (l.dlookup k).elim 0 (f k)
      = (l.map fun e => f e.1 e.2).sum := by
  induction l with
  | nil => simp
  | cons e l ih =>
      obtain ⟨k', v⟩ := e
      by_cases hk : k = k'
      · subst hk
        simp [add_comm]
      · rw [List.kerase_cons_ne hk, List.dlookup_cons_ne l _ hk, List.map_cons, List.map_cons,
          List.sum_cons, List.sum_cons, add_assoc, ih]

/-- Erasing `k` removes exactly the weight held at `k`. -/
theorem sumBy_erase_add (m : Map κ ν) (k : κ) :
    sumBy f (m.erase k) + weightAt f m k = sumBy f m :=
  sum_kerase_add f k m.entries

/-- Inserting at `k` adds the new value's weight to that of the other keys. -/
theorem sumBy_insert (m : Map κ ν) (k : κ) (v : ν) :
    sumBy f (m.insert k v) = sumBy f (m.erase k) + f k v := by
  have herased : (m.erase k).entries = List.kerase k m.entries := rfl
  rw [add_comm]
  simp [sumBy, AList.entries_insert, herased]

/-- Inserting at `k` puts the new value's weight in place of the weight held at `k`. -/
theorem sumBy_insert_add (m : Map κ ν) (k : κ) (v : ν) :
    sumBy f (m.insert k v) + weightAt f m k = sumBy f m + f k v := by
  rw [sumBy_insert, add_right_comm, sumBy_erase_add]

/-- A sum to which only one key contributes is the weight held there. -/
theorem sumBy_eq_weightAt {m : Map κ ν} {k : κ}
    (h : ∀ e ∈ m.entries, e.1 ≠ k → f e.1 e.2 = 0) : sumBy f m = weightAt f m k := by
  have hrest : sumBy f (m.erase k) = 0 := by
    refine sumBy_eq_zero f fun e he => ?_
    have hmem : e ∈ m.entries := (List.kerase_sublist k m.entries).subset he
    refine h e hmem ?_
    rintro rfl
    exact List.notMem_keys_kerase e.1 m.nodupKeys (List.mem_keys_of_mem he)
  rw [← sumBy_erase_add f m k, hrest, zero_add]

/-- Storing at `k` puts the new value's weight in place of the old one, the default weighing
nothing. -/
theorem sumBy_store_add [DecidableEq ν] (m : Map κ ν) (k : κ) (d v : ν) (hd : f k d = 0) :
    sumBy f (store d m k v) + f k (get d m k) = sumBy f m + f k v := by
  rw [← weightAt_eq_get f m k hd]
  unfold store
  split
  · rename_i hv
    rw [sumBy_erase_add, hv, hd, add_zero]
  · exact sumBy_insert_add f m k v

end Sum

variable [DecidableEq κ]

/-- An entry is listed exactly when looking its key up finds its value. -/
theorem mem_entries_iff {m : Map κ ν} {k : κ} {v : ν} :
    (⟨k, v⟩ : Sigma fun _ : κ => ν) ∈ m.entries ↔ m.lookup k = some v :=
  (List.mem_dlookup_iff m.nodupKeys).symm

/-- What is found at a key that was not there before is what was inserted. -/
theorem eq_of_lookup_insert {m : Map κ ν} {k k' : κ} {v v' : ν} (hnew : m.lookup k' = none)
    (h : (m.insert k v).lookup k' = some v') : v' = v := by
  by_cases hk : k' = k
  · subst hk
    rw [AList.lookup_insert] at h
    exact (Option.some.inj h).symm
  · rw [AList.lookup_insert_ne hk, hnew] at h
    cases h

/-- No single key outweighs the whole map. -/
theorem weightAt_le_sumBy (f : κ → ν → ℕ) (m : Map κ ν) (k : κ) :
    weightAt f m k ≤ sumBy f m := by
  rw [← sumBy_erase_add f m k]
  exact Nat.le_add_left _ _

/-- Nor do several keys. -/
theorem sum_get_le_sumBy (m : Map κ ℕ) {ks : List κ} (hks : ks.Nodup) :
    (ks.map (get 0 m)).sum ≤ sumBy (fun _ n => n) m := by
  induction ks generalizing m with
  | nil => exact Nat.zero_le _
  | cons k ks ih =>
      obtain ⟨hk, hks⟩ := List.nodup_cons.mp hks
      have hrest : ks.map (get 0 m) = ks.map (get 0 (m.erase k)) := by
        refine List.map_congr_left fun k' hk' => ?_
        have hne : k' ≠ k := fun h => hk (h ▸ hk')
        exact (get_erase_ne 0 m hne).symm
      have herase := sumBy_erase_add (fun (_ : κ) (n : ℕ) => n) m k
      rw [weightAt_eq_get (fun (_ : κ) (n : ℕ) => n) m k (d := 0) rfl] at herase
      have hle := ih (m.erase k) hks
      rw [List.map_cons, List.sum_cons, hrest]
      omega

/-! ## Maps that mirror each other -/

section Mirrors

variable [DecidableEq ν]

/-- Two maps, each the other one read backwards. -/
def Mirrors (m : Map κ ν) (m' : Map ν κ) : Prop :=
  ∀ k v, m.lookup k = some v ↔ m'.lookup v = some k

variable {m n : Map κ ν} {m' n' : Map ν κ} {k : κ} {v : ν}

theorem Mirrors.congr (h : Mirrors m m') (hn : ∀ k, n.lookup k = m.lookup k)
    (hn' : ∀ v, n'.lookup v = m'.lookup v) : Mirrors n n' := fun k v => by
  rw [hn, hn']
  exact h k v

/-- Two that are not in use can be linked. -/
theorem Mirrors.insert (h : Mirrors m m') (hk : m.lookup k = none) (hv : m'.lookup v = none) :
    Mirrors (m.insert k v) (m'.insert v k) := by
  intro i j
  by_cases hi : i = k
  · subst hi
    rw [AList.lookup_insert]
    by_cases hj : j = v
    · subst hj
      rw [AList.lookup_insert]
      exact iff_of_true rfl rfl
    · rw [AList.lookup_insert_ne hj, ← h, hk]
      exact iff_of_false (fun hjv => hj (Option.some.inj hjv).symm) nofun
  · rw [AList.lookup_insert_ne hi]
    by_cases hj : j = v
    · subst hj
      rw [AList.lookup_insert, h, hv]
      exact iff_of_false nofun fun hik => hi (Option.some.inj hik).symm
    · rw [AList.lookup_insert_ne hj]
      exact h i j

/-- Two that are linked can be taken out. -/
theorem Mirrors.erase (h : Mirrors m m') (hk : m.lookup k = some v) :
    Mirrors (m.erase k) (m'.erase v) := by
  have hv := (h k v).mp hk
  intro i j
  by_cases hi : i = k
  · subst hi
    rw [AList.lookup_erase]
    by_cases hj : j = v
    · subst hj
      rw [AList.lookup_erase]
      exact iff_of_false nofun nofun
    · rw [AList.lookup_erase_ne hj, ← h, hk]
      exact iff_of_false nofun fun hjv => hj (Option.some.inj hjv).symm
  · rw [AList.lookup_erase_ne hi]
    by_cases hj : j = v
    · subst hj
      rw [AList.lookup_erase, h, hv]
      exact iff_of_false (fun hik => hi (Option.some.inj hik).symm) nofun
    · rw [AList.lookup_erase_ne hj]
      exact h i j

end Mirrors

/-! ## Filtering by key -/

section Filter

variable (p : κ → Prop) [DecidablePred p]

omit [DecidableEq κ] in
private theorem filter_keys_sublist (l : List (Sigma fun _ : κ => ν)) :
    (l.filter fun e => p e.1).keys.Sublist l.keys :=
  List.Sublist.map _ List.filter_sublist

/-- The entries whose key satisfies `p`. -/
def restrict (m : Map κ ν) : Map κ ν :=
  ⟨m.entries.filter fun e => p e.1, (filter_keys_sublist p m.entries).nodup m.nodupKeys⟩

private theorem dlookup_filter (l : List (Sigma fun _ : κ => ν)) (k : κ) :
    (l.filter fun e => p e.1).dlookup k = if p k then l.dlookup k else none := by
  induction l with
  | nil => simp
  | cons e l ih =>
      obtain ⟨k', v⟩ := e
      by_cases hk : k = k'
      · subst hk
        by_cases hp : p k
        · simp [hp]
        · simpa [hp] using ih
      · have hne : ∀ t : List (Sigma fun _ : κ => ν), (⟨k', v⟩ :: t).dlookup k = t.dlookup k :=
          fun t => List.dlookup_cons_ne t ⟨k', v⟩ hk
        by_cases hp : p k'
        · simpa [hp, hne] using ih
        · simpa [hp, hne] using ih

@[simp] theorem lookup_restrict (m : Map κ ν) (k : κ) :
    (restrict p m).lookup k = if p k then m.lookup k else none :=
  dlookup_filter p m.entries k

variable [AddCommMonoid M] (f : κ → ν → M)

omit [DecidableEq κ] in
private theorem sum_filter_add (l : List (Sigma fun _ : κ => ν)) :
    ((l.filter fun e => p e.1).map fun e => f e.1 e.2).sum
      + ((l.filter fun e => ¬ p e.1).map fun e => f e.1 e.2).sum
      = (l.map fun e => f e.1 e.2).sum := by
  induction l with
  | nil => simp
  | cons e l ih =>
      by_cases hp : p e.1
      · simp [hp, add_assoc, ← ih]
      · simp [hp, add_left_comm, ← ih]

omit [DecidableEq κ] in
/-- A predicate on keys splits a sum into the part that satisfies it and the rest. -/
theorem sumBy_partition (m : Map κ ν) :
    sumBy f (restrict p m) + sumBy f (restrict (fun k => ¬ p k) m) = sumBy f m :=
  sum_filter_add p f m.entries

omit [DecidableEq κ] in
/-- Summing over the entries that satisfy `p` is summing a weight that ignores the others. -/
theorem sumBy_restrict (m : Map κ ν) :
    sumBy f (restrict p m) = sumBy (fun k v => if p k then f k v else 0) m := by
  have hif : ∀ l : List (Sigma fun _ : κ => ν),
      ((l.filter fun e => p e.1).map fun e => f e.1 e.2).sum
        = (l.map fun e => if p e.1 then f e.1 e.2 else 0).sum := by
    intro l
    induction l with
    | nil => rfl
    | cons e l ih => by_cases hp : p e.1 <;> simp [hp, ih]
  exact hif m.entries

/-- Where no key satisfies `p`, restricting to `p` leaves nothing to sum. -/
theorem sumBy_restrict_eq_zero {m : Map κ ν} (h : ∀ k, p k → m.lookup k = none) :
    sumBy f (restrict p m) = 0 := by
  refine sumBy_eq_zero f ?_
  rintro ⟨k, v⟩ he
  have hl : (restrict p m).lookup k = some v := mem_entries_iff.mp he
  rw [lookup_restrict] at hl
  split at hl
  · rename_i hp
    rw [h k hp] at hl
    cases hl
  · cases hl

end Filter

end StorageMap
