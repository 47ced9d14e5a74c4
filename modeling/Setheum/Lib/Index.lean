import Mathlib.Logic.Function.Basic

/-!
# An index into a store

An index takes a key to a cell, and a store takes a cell to a value that names its key. `Paired`
says that the index finds exactly the cells that hold something, each under the key its value
names. It survives a new entry, a new value for an entry, the move of an entry to another cell and
the removal of an entry.
-/

set_option autoImplicit false

namespace Index

variable {K C V : Type*}

/-- A key leads to a cell exactly when the cell's value names the key. -/
def Paired (key : V → K) (index : K → Option C) (store : C → Option V) : Prop :=
  ∀ k c, index k = some c ↔ ∃ v, store c = some v ∧ key v = k

variable {key : V → K} {index : K → Option C} {store : C → Option V} {k : K} {c c' : C} {v v' : V}

theorem Paired.empty (hindex : ∀ k, index k = none) (hstore : ∀ c, store c = none) :
    Paired key index store := by
  intro k c
  simp [hindex k, hstore c]

theorem Paired.lookup (h : Paired key index store) (hk : index k = some c) :
    ∃ v, store c = some v ∧ key v = k :=
  (h k c).mp hk

theorem Paired.index_eq (h : Paired key index store) (hv : store c = some v) :
    index (key v) = some c :=
  (h (key v) c).mpr ⟨v, hv, rfl⟩

/-- Values in two cells name two keys. -/
theorem Paired.cell_eq (h : Paired key index store) (hv : store c = some v)
    (hv' : store c' = some v') (hkey : key v = key v') : c = c' := by
  have hc := h.index_eq hv
  rw [hkey, h.index_eq hv'] at hc
  exact (Option.some.inj hc).symm

variable [DecidableEq C]

/-- What holds of all values and of the new one holds of all values of an updated store. -/
theorem forall_update {P : V → Prop} (h : ∀ d w, store d = some w → P w) {new : Option V}
    (hnew : ∀ w, new = some w → P w) :
    ∀ d w, Function.update store c new d = some w → P w := by
  intro d w hw
  by_cases hd : d = c
  · subst hd
    rw [Function.update_self] at hw
    exact hnew w hw
  · rw [Function.update_of_ne hd] at hw
    exact h d w hw

/-- A new value for an entry. -/
theorem Paired.replace (h : Paired key index store) (hv : store c = some v)
    (hkey : key v' = key v) : Paired key index (Function.update store c (some v')) := by
  intro k d
  by_cases hd : d = c
  · subst hd
    simp [h k d, hv, hkey]
  · simp [h k d, hd]

variable [DecidableEq K]

/-- A new entry under a key and in a cell that are both free. -/
theorem Paired.insert (h : Paired key index store) (hk : index (key v) = none)
    (hc : store c = none) :
    Paired key (Function.update index (key v) (some c)) (Function.update store c (some v)) := by
  intro k d
  have hnone : ∀ d w, store d = some w → key w ≠ key v := by
    intro d w hw hkey
    have hindex := h.index_eq hw
    rw [hkey, hk] at hindex
    cases hindex
  by_cases hkv : k = key v <;> by_cases hd : d = c
  · simp [hkv, hd]
  · simp only [hkv, Function.update_self, Function.update_of_ne hd, Option.some.injEq]
    exact ⟨fun hcd => absurd hcd.symm hd, fun ⟨w, hw, hkey⟩ => absurd hkey (hnone d w hw)⟩
  · simp only [hd, Function.update_of_ne hkv, Function.update_self, Option.some.injEq]
    refine ⟨fun hindex => ?_, fun ⟨w, hw, hkey⟩ => ?_⟩
    · obtain ⟨w, hw, -⟩ := h.lookup hindex
      rw [hc] at hw
      cases hw
    · subst hw
      exact absurd hkey.symm hkv
  · simp [hkv, hd, h k d]

/-- The removal of an entry. -/
theorem Paired.erase (h : Paired key index store) (hk : index k = some c) :
    Paired key (Function.update index k none) (Function.update store c none) := by
  intro k' d
  by_cases hkk : k' = k <;> by_cases hd : d = c
  · simp [hkk, hd]
  · simp only [hkk, Function.update_self, Function.update_of_ne hd]
    refine ⟨nofun, fun ⟨w, hw, hkey⟩ => ?_⟩
    have hindex := h.index_eq hw
    rw [hkey, hk] at hindex
    exact absurd (Option.some.inj hindex).symm hd
  · simp only [hd, Function.update_of_ne hkk, Function.update_self]
    refine ⟨fun hindex => ?_, nofun⟩
    obtain ⟨w, hw, hkey⟩ := h.lookup hindex
    obtain ⟨v, hv, hkey'⟩ := h.lookup hk
    rw [hw] at hv
    cases hv
    exact absurd (hkey.symm.trans hkey') hkk
  · simp [hkk, hd, h k' d]

/-- The move of an entry to a free cell: its removal and a new entry. -/
theorem Paired.move (h : Paired key index store) (hk : index (key v) = some c)
    (hc' : store c' = none) :
    Paired key (Function.update index (key v) (some c'))
      (Function.update (Function.update store c none) c' (some v)) := by
  have herased := h.erase hk
  have hfree : Function.update store c none c' = none := by
    by_cases hcc : c' = c
    · simp [hcc]
    · simp [hcc, hc']
  have hinsert := herased.insert (v := v) (Function.update_self _ _ _) hfree
  rwa [Function.update_idem] at hinsert

end Index
