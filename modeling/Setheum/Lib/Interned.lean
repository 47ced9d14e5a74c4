import Mathlib.Logic.Function.Basic
import Mathlib.Data.Nat.Basic

/-!
# Values shared under reference counts

A store keeps each value once, under a key computed from it, together with its size and a count of
the parties that refer to it. The first reference stores the value, the last one to go removes it.
Counts are kept in a fixed number of bits and saturate at a bound.

* `Counted` — the store agrees with the number of references each key really has.
* `Counted.intern` — a new reference keeps the agreement, below the bound.
* `Counted.release` — so does a reference that goes, if there was one.
-/

set_option autoImplicit false

namespace Interned

variable {K V : Type*}

/-- The values and, for each, its size and its count. -/
structure Store (K V : Type*) where
  values : K → Option V
  infos : K → Option (ℕ × ℕ)

variable [DecidableEq K] (key : V → K) (size : V → ℕ) (bound : ℕ)

/-- Take a reference to a value. -/
def intern (v : V) (st : Store K V) : Store K V :=
  match st.infos (key v) with
  | some (n, count) =>
      { st with infos := Function.update st.infos (key v) (some (n, min (count + 1) bound)) }
  | none =>
      { values := Function.update st.values (key v) (some v)
        infos := Function.update st.infos (key v) (some (size v, 1)) }

/-- Drop a reference to the value at a key. -/
def release (k : K) (st : Store K V) : Store K V :=
  match st.infos k with
  | some (n, count) =>
      if count - 1 = 0 then
        { values := Function.update st.values k none
          infos := Function.update st.infos k none }
      else { st with infos := Function.update st.infos k (some (n, count - 1)) }
  | none => st

/-- The store agrees with the number of references to each key. -/
structure Counted (refs : K → ℕ) (st : Store K V) : Prop where
  absent : ∀ k, refs k = 0 → st.infos k = none ∧ st.values k = none
  present : ∀ k, refs k ≠ 0 → ∃ v, st.values k = some v ∧ key v = k ∧
    st.infos k = some (size v, refs k)

variable {key size bound} {refs refs' : K → ℕ} {st st' : Store K V}

section

omit [DecidableEq K]

theorem Counted.infos_eq_none (h : Counted key size refs st) {k : K} (hk : st.infos k = none) :
    refs k = 0 := by
  by_contra hrefs
  obtain ⟨v, -, -, hinfo⟩ := h.present k hrefs
  rw [hk] at hinfo
  cases hinfo

theorem Counted.infos_eq_some (h : Counted key size refs st) {k : K} {n count : ℕ}
    (hk : st.infos k = some (n, count)) :
    count = refs k ∧ ∃ v, st.values k = some v ∧ key v = k ∧ n = size v := by
  have hrefs : refs k ≠ 0 := by
    intro hzero
    rw [(h.absent k hzero).1] at hk
    cases hk
  obtain ⟨v, hv, hkey, hinfo⟩ := h.present k hrefs
  rw [hinfo] at hk
  cases hk
  exact ⟨rfl, v, hv, hkey, rfl⟩

/-- Agreement is a matter of each key alone. -/
theorem Counted.at_key (h : Counted key size refs st) {k : K}
    (hrefs : ∀ i, i ≠ k → refs' i = refs i) (hinfos : ∀ i, i ≠ k → st'.infos i = st.infos i)
    (hvalues : ∀ i, i ≠ k → st'.values i = st.values i)
    (habsent : refs' k = 0 → st'.infos k = none ∧ st'.values k = none)
    (hpresent : refs' k ≠ 0 → ∃ v, st'.values k = some v ∧ key v = k ∧
      st'.infos k = some (size v, refs' k)) : Counted key size refs' st' := by
  refine ⟨fun i hi => ?_, fun i hi => ?_⟩
  · by_cases hik : i = k
    · subst hik
      exact habsent hi
    · rw [hinfos i hik, hvalues i hik]
      exact h.absent i (by rw [← hrefs i hik, hi])
  · by_cases hik : i = k
    · subst hik
      exact hpresent hi
    · rw [hinfos i hik, hvalues i hik, hrefs i hik]
      exact h.present i (by rwa [← hrefs i hik])

end

/-- **A new reference is counted**, as long as the count has room. -/
theorem Counted.intern (h : Counted key size refs st) {v : V} (hroom : refs (key v) < bound)
    (hrefs : ∀ k, refs' k = refs k + if k = key v then 1 else 0) :
    Counted key size refs' (intern key size bound v st) := by
  have hself : refs' (key v) = refs (key v) + 1 := by rw [hrefs, if_pos rfl]
  have hother : ∀ k, k ≠ key v → refs' k = refs k := fun k hk => by rw [hrefs, if_neg hk]; rfl
  unfold Interned.intern
  cases hinfo : st.infos (key v) with
  | some entry =>
      obtain ⟨hcount, u, hu, hkey, hsize⟩ := h.infos_eq_some hinfo
      refine h.at_key hother (fun k hk => Function.update_of_ne hk ..) (fun _ _ => rfl)
        (fun hzero => by omega) fun _ => ⟨u, hu, hkey, ?_⟩
      dsimp only
      rw [Function.update_self, hsize, hcount, hself, Nat.min_eq_left hroom]
  | none =>
      have hzero := h.infos_eq_none hinfo
      refine h.at_key hother (fun k hk => Function.update_of_ne hk ..)
        (fun k hk => Function.update_of_ne hk ..) (fun hzero => by omega)
        fun _ => ⟨v, Function.update_self .., rfl, ?_⟩
      dsimp only
      rw [Function.update_self, hself, hzero]

/-- **A dropped reference is counted**, if it was one. -/
theorem Counted.release (h : Counted key size refs st) {k : K}
    (hrefs : ∀ i, refs' i + (if i = k then 1 else 0) = refs i) :
    Counted key size refs' (release k st) := by
  have hself : refs' k + 1 = refs k := by
    have hk := hrefs k
    rwa [if_pos rfl] at hk
  have hother : ∀ i, i ≠ k → refs' i = refs i := fun i hi => by
    have hk := hrefs i
    rwa [if_neg hi] at hk
  obtain ⟨v, hv, hkey, hinfo⟩ := h.present k (by omega)
  simp only [Interned.release, hinfo]
  split
  · rename_i hlast
    exact h.at_key hother (fun i hi => Function.update_of_ne hi ..)
      (fun i hi => Function.update_of_ne hi ..)
      (fun _ => ⟨Function.update_self .., Function.update_self ..⟩) (fun hne => by omega)
  · rename_i hmore
    refine h.at_key hother (fun i hi => Function.update_of_ne hi ..) (fun _ _ => rfl)
      (fun hzero => by omega) fun _ => ⟨v, hv, hkey, ?_⟩
    dsimp only
    rw [Function.update_self, ← hself]
    rfl

end Interned
