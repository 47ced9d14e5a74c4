import Setheum.Lib.StorageMap

/-!
# Running totals of a map

A component that keeps values in a map and, beside it, the total weight of the values under each
key of their own must change both together. `Tracks` says that it has; the lemmas are what adding,
removing and replacing a value ask of the totals, and what happens when one side is forgotten.

* `Tracks.insert`, `Tracks.erase`, `Tracks.replace` — the updates that keep the totals.
* `Tracks.not_erase` — a value that weighs something cannot be removed from the map alone.
-/

set_option autoImplicit false

namespace StorageMap

variable {κ ν K : Type*} [DecidableEq K] (key : ν → K) (weight : ν → ℕ)

/-- The weight of the values under the key `c`. -/
def totalAt (m : Map κ ν) (c : K) : ℕ :=
  sumBy (fun _ v => if key v = c then weight v else 0) m

/-- The totals are those of the map. -/
def Tracks (totals : K → ℕ) (m : Map κ ν) : Prop := ∀ c, totals c = totalAt key weight m c

variable {key weight} {totals totals' : K → ℕ} {m : Map κ ν} {k : κ} {v v' : ν}

/-- Under a single key the total is the whole weight. -/
theorem tracks_unit {weight : ν → ℕ} {n : ℕ} :
    Tracks (fun _ => ()) weight (fun _ => n) m ↔ n = sumBy (fun _ v => weight v) m := by
  simp [Tracks, totalAt]

variable [DecidableEq κ]

theorem Tracks.insert (h : Tracks key weight totals m) (hk : m.lookup k = none)
    (htotals : ∀ c, totals' c = totals c + if key v = c then weight v else 0) :
    Tracks key weight totals' (m.insert k v) := by
  intro c
  have hinsert := sumBy_insert_add (fun _ v => if key v = c then weight v else 0) m k v
  rw [weightAt_of_notMem _ hk] at hinsert
  rw [htotals c, h c]
  unfold totalAt
  omega

theorem Tracks.erase (h : Tracks key weight totals m) (hk : m.lookup k = some v)
    (htotals : ∀ c, totals' c = totals c - if key v = c then weight v else 0) :
    Tracks key weight totals' (m.erase k) := by
  intro c
  have herase := sumBy_erase_add (fun _ v => if key v = c then weight v else 0) m k
  rw [weightAt_of_lookup _ hk] at herase
  rw [htotals c, h c]
  unfold totalAt
  omega

/-- A value may change into one of the same key and weight. -/
theorem Tracks.replace (h : Tracks key weight totals m) (hk : m.lookup k = some v)
    (hkey : key v' = key v) (hweight : weight v' = weight v) :
    Tracks key weight totals (m.insert k v') := by
  intro c
  have hinsert := sumBy_insert_add (fun _ v => if key v = c then weight v else 0) m k v'
  rw [weightAt_of_lookup _ hk, hkey, hweight] at hinsert
  rw [h c]
  unfold totalAt
  omega

/-- A value that weighs something cannot be removed from the map alone. -/
theorem Tracks.not_erase (h : Tracks key weight totals m) (hk : m.lookup k = some v)
    (hpos : 0 < weight v) : ¬ Tracks key weight totals (m.erase k) := by
  intro h'
  have herase := sumBy_erase_add (fun _ w => if key w = key v then weight w else 0) m k
  rw [weightAt_of_lookup _ hk, if_pos rfl] at herase
  have hbefore := h (key v)
  have hafter := h' (key v)
  unfold totalAt at hbefore hafter
  omega

end StorageMap
