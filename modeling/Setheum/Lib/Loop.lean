import Mathlib.Data.Nat.Basic
import Mathlib.Logic.Relation

/-!
# Loops

A pass of a loop takes a state to the next one or ends the loop with a result, and may fail. A loop
is run for a number of passes; if they are not enough, that is an error of its own.

* `run_outcome` — the loop rule: with an invariant that a pass keeps and a measure that it lowers,
  the loop ends, in a state it can reach, with what the pass from there gives.
* `run_congr` — two loops whose passes agree as long as the invariant holds.
-/

set_option autoImplicit false

namespace Loop

/-- What a pass leads to. -/
inductive Next (S R : Type*)
  | again (s : S)
  | done (r : R)

variable {S R ε : Type*}

def run (pass : S → Except ε (Next S R)) (unfinished : ε) : ℕ → S → Except ε R
  | 0, _ => .error unfinished
  | n + 1, s =>
      match pass s with
      | .error e => .error e
      | .ok (.done r) => .ok r
      | .ok (.again s') => run pass unfinished n s'

/-- Some passes lead from one state to the other. -/
def Reaches (pass : S → Except ε (Next S R)) : S → S → Prop :=
  Relation.ReflTransGen fun s s' => pass s = .ok (.again s')

/-- Every pass from a state with the invariant keeps it and lowers the measure. -/
structure Progresses (pass : S → Except ε (Next S R)) (Inv : S → Prop) (measure : S → ℕ) :
    Prop where
  keeps : ∀ s s', Inv s → pass s = .ok (.again s') → Inv s'
  lowers : ∀ s s', Inv s → pass s = .ok (.again s') → measure s' < measure s

section Rule

variable {pass : S → Except ε (Next S R)} {unfinished : ε} {Inv : S → Prop} {measure : S → ℕ}

theorem Reaches.keeps (hp : Progresses pass Inv measure) {s s' : S} (h : Reaches pass s s')
    (hs : Inv s) : Inv s' := by
  induction h with
  | refl => exact hs
  | tail _ hpass ih => exact hp.keeps _ _ ih hpass

variable (unfinished) in
/-- **The loop rule.** -/
theorem run_outcome (hp : Progresses pass Inv measure) {n : ℕ} {s : S} (hs : Inv s)
    (hn : measure s < n) :
    ∃ s', Reaches pass s s' ∧ Inv s' ∧
      ((∃ r, pass s' = .ok (.done r) ∧ run pass unfinished n s = .ok r) ∨
        ∃ e, pass s' = .error e ∧ run pass unfinished n s = .error e) := by
  induction n generalizing s with
  | zero => omega
  | succ n ih =>
      unfold run
      split
      · rename_i e hpass
        exact ⟨s, .refl, hs, .inr ⟨e, hpass, rfl⟩⟩
      · rename_i r hpass
        exact ⟨s, .refl, hs, .inl ⟨r, hpass, rfl⟩⟩
      · rename_i t hpass
        have hlower := hp.lowers s t hs hpass
        obtain ⟨s', hreaches, hinv, hend⟩ := ih (hp.keeps s t hs hpass) (by omega)
        exact ⟨s', .head hpass hreaches, hinv, hend⟩

variable (unfinished) in
/-- A state from which the loop fails is where it ends. -/
theorem run_of_reaches (hp : Progresses pass Inv measure) {n : ℕ} {s s' : S} {e : ε} (hs : Inv s)
    (hn : measure s < n) (h : Reaches pass s s') (he : pass s' = .error e) :
    run pass unfinished n s = .error e := by
  induction h using Relation.ReflTransGen.head_induction_on generalizing n with
  | refl =>
      obtain ⟨n, rfl⟩ : ∃ m, n = m + 1 := ⟨n - 1, by omega⟩
      simp only [run, he]
  | head hpass _ ih =>
      obtain ⟨n, rfl⟩ : ∃ m, n = m + 1 := ⟨n - 1, by omega⟩
      have hlower := hp.lowers _ _ hs hpass
      simp only [run, hpass]
      exact ih (hp.keeps _ _ hs hpass) (by omega)

/-- Passes that agree make loops that agree. -/
theorem run_congr {pass' : S → Except ε (Next S R)} (hp : Progresses pass Inv measure)
    (hpass : ∀ s, Inv s → pass' s = pass s) (n : ℕ) {s : S} (hs : Inv s) :
    run pass' unfinished n s = run pass unfinished n s := by
  induction n generalizing s with
  | zero => rfl
  | succ n ih =>
      unfold run
      rw [hpass s hs]
      split
      · rfl
      · rfl
      · rename_i t ht
        exact ih (hp.keeps s t hs ht)

end Rule

end Loop
