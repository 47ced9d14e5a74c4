import Mathlib.Data.List.Induction
import Setheum.Lib.StorageMap

/-!
# Logs kept in a map under a counter

A component that numbers its records keeps a map from ids to records and the next id. `Logs` says
that the two hold a list of records, oldest first, each under its position. A new record goes to
the next id, and what the log held before stays where it was.

* `Logs.append` — a record inserted at the next id is appended.
* `Logs.mem_iff` — the ids in use are exactly those below the next one.
* `Logs.lookup_append` — a record is found unaltered in every log that continues its own.
* `Logs.sumBy_eq` — a sum over the map is the sum over the records.
-/

set_option autoImplicit false

namespace StorageMap

variable {ν M : Type*}

/-- The map and the next id hold the records of `l`, each under its position. -/
structure Logs (m : Map ℕ ν) (next : ℕ) (l : List ν) : Prop where
  next_eq : next = l.length
  lookup_eq : ∀ k, m.lookup k = l[k]?

variable {m m' : Map ℕ ν} {next next' : ℕ} {l l' : List ν} {v : ν}

theorem Logs.empty : Logs (∅ : Map ℕ ν) 0 [] where
  next_eq := rfl
  lookup_eq k := by simp

theorem Logs.append (h : Logs m next l) (v : ν) :
    Logs (m.insert next v) (next + 1) (l ++ [v]) where
  next_eq := by rw [h.next_eq, List.length_append, List.length_singleton]
  lookup_eq k := by
    have hnext := h.next_eq
    subst hnext
    by_cases hk : k = l.length
    · subst hk
      rw [AList.lookup_insert, List.getElem?_concat_length]
    · rw [AList.lookup_insert_ne hk, h.lookup_eq]
      rcases Nat.lt_or_gt_of_ne hk with hlt | hgt
      · rw [List.getElem?_append_left hlt]
      · rw [List.getElem?_eq_none (by omega), List.getElem?_eq_none (by simp; omega)]

/-- **The ids in use are those below the next one.** -/
theorem Logs.mem_iff (h : Logs m next l) (k : ℕ) : k ∈ m ↔ k < next := by
  rw [← AList.lookup_isSome, h.lookup_eq, h.next_eq]
  simp

/-- **A log that is continued keeps its records.** -/
theorem Logs.lookup_append (h : Logs m next l) (h' : Logs m' next' (l ++ l')) {k : ℕ}
    (hk : m.lookup k = some v) : m'.lookup k = some v := by
  rw [h.lookup_eq] at hk
  rw [h'.lookup_eq]
  obtain ⟨hlt, -⟩ := List.getElem?_eq_some_iff.mp hk
  rw [List.getElem?_append_left hlt, hk]

/-- **A sum over the map is the sum over the records.** -/
theorem Logs.sumBy_eq [AddCommMonoid M] (f : ν → M) (h : Logs m next l) :
    sumBy (fun _ v => f v) m = (l.map f).sum := by
  induction l using List.reverseRecOn generalizing m next with
  | nil =>
      refine sumBy_eq_zero _ ?_
      rintro ⟨k, v⟩ he
      have hk := mem_entries_iff.mp he
      rw [h.lookup_eq] at hk
      cases hk
  | append_singleton l v ih =>
      have hlast : m.lookup l.length = some v := by
        rw [h.lookup_eq, List.getElem?_concat_length]
      -- without its last record, the map is the log before it
      have hinit : Logs (m.erase l.length) l.length l := by
        refine ⟨rfl, fun k => ?_⟩
        by_cases hk : k = l.length
        · subst hk
          rw [AList.lookup_erase, List.getElem?_eq_none le_rfl]
        · rw [AList.lookup_erase_ne hk, h.lookup_eq]
          rcases Nat.lt_or_gt_of_ne hk with hlt | hgt
          · rw [List.getElem?_append_left hlt]
          · rw [List.getElem?_eq_none (by simp; omega), List.getElem?_eq_none (by omega)]
      rw [← sumBy_erase_add _ m l.length, ih hinit, weightAt_of_lookup _ hlast, List.map_append,
        List.sum_append, List.map_singleton, List.sum_singleton]

end StorageMap
