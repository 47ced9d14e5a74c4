import Setheum.Lib.StorageMap

/-!
# Maps with a counter of their entries

A component that may not walk a map keeps the number of its entries in a counter of its own, which
goes up when a new key is inserted and down when a key that was there is erased. `Counted` says
that the counter is right; it survives an insertion that looks whether the key is new, and a
removal that looks whether it is there.
-/

set_option autoImplicit false

namespace StorageMap

variable {κ ν : Type*}

/-- The number of entries of a map. -/
def size (m : Map κ ν) : ℕ := m.entries.length

/-- The counter is the number of entries. -/
def Counted (m : Map κ ν) (count : ℕ) : Prop := count = size m

@[simp] theorem size_empty : size (∅ : Map κ ν) = 0 := rfl

variable {m : Map κ ν} {count : ℕ}

theorem size_eq_sumBy (m : Map κ ν) : size m = sumBy (fun _ _ => 1) m := by
  simp [size, sumBy]

variable [DecidableEq κ]

/-- A key weighs one entry if it is there. -/
private theorem weightAt_one (m : Map κ ν) (k : κ) :
    weightAt (fun _ _ => 1) m k = if k ∈ m then 1 else 0 := by
  split
  · rename_i hk
    obtain ⟨v, hv⟩ := Option.isSome_iff_exists.mp (AList.lookup_isSome.mpr hk)
    exact weightAt_of_lookup _ hv
  · rename_i hk
    exact weightAt_of_notMem _ (AList.lookup_eq_none.mpr hk)

/-- **A counter that goes up for a new key only** stays right. -/
theorem Counted.insert (h : Counted m count) (k : κ) (v : ν) :
    Counted (m.insert k v) (if k ∈ m then count else count + 1) := by
  have hinsert := sumBy_insert_add (fun _ _ => 1) m k v
  rw [weightAt_one, ← size_eq_sumBy, ← size_eq_sumBy] at hinsert
  unfold Counted at h ⊢
  split at hinsert <;> rename_i hk
  · rw [if_pos hk]
    omega
  · rw [if_neg hk]
    omega

/-- **A counter that goes down for a key that was there** stays right. -/
theorem Counted.erase (h : Counted m count) {k : κ} (hk : k ∈ m) :
    Counted (m.erase k) (count - 1) := by
  have herase := sumBy_erase_add (fun _ _ => 1) m k
  rw [weightAt_one, if_pos hk, ← size_eq_sumBy, ← size_eq_sumBy] at herase
  unfold Counted at h ⊢
  omega

/-- A new value for a key that is there leaves the keys and the counter alone. -/
theorem Counted.replace (h : Counted m count) {k : κ} (hk : k ∈ m) (v : ν) :
    Counted (m.insert k v) count := by
  have hinsert := h.insert k v
  rwa [if_pos hk] at hinsert

theorem mem_replace {k : κ} (hk : k ∈ m) (v : ν) (k' : κ) : k' ∈ m.insert k v ↔ k' ∈ m := by
  rw [AList.mem_insert]
  refine ⟨?_, .inr⟩
  rintro (rfl | hk')
  · exact hk
  · exact hk'

end StorageMap
