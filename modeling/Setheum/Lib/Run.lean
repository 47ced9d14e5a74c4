import Mathlib.Logic.Basic

/-!
# Runs of a transition function

A machine is a function that takes a state and a label to the next state. A run is a list of
labels, oldest first. A condition on steps is a predicate on the state before the step and its
label; `StepsMeet` asks it of every step of a run.

* `run_invariant` — an invariant that every step meeting the condition preserves holds after
  every run whose steps all meet it.
* `run_holds_iff`, `run_invariant_iff` — a property holds all along a run exactly when every step
  meets the condition, if each step keeps it exactly then.
* `StepsMeet.map` — a machine with a ghost state meets a condition of the machine without it.
* `StepsMeet.append` — a run meets the condition exactly when both of its halves do.
* `Reaches.run_map` — a run of a machine is to another what its steps are to it.
-/

set_option autoImplicit false

namespace Machine

variable {S L : Type*} (step : S → L → S)

/-- The state after the labels of a run, oldest first. -/
def run (s : S) (ls : List L) : S := ls.foldl step s

@[simp] theorem run_nil (s : S) : run step s [] = s := rfl

@[simp] theorem run_cons (s : S) (l : L) (ls : List L) :
    run step s (l :: ls) = run step (step s l) ls := rfl

theorem run_append (s : S) (ls ls' : List L) :
    run step s (ls ++ ls') = run step (run step s ls) ls' :=
  List.foldl_append

/-- Every step of the run meets the condition in the state it is taken from. -/
def StepsMeet (ok : S → L → Prop) : S → List L → Prop
  | _, [] => True
  | s, l :: ls => ok s l ∧ StepsMeet ok (step s l) ls

instance StepsMeet.decidable (ok : S → L → Prop) [∀ s l, Decidable (ok s l)] :
    ∀ s ls, Decidable (StepsMeet step ok s ls)
  | _, [] => inferInstanceAs (Decidable True)
  | s, l :: ls =>
      have := StepsMeet.decidable ok (step s l) ls
      inferInstanceAs (Decidable (ok s l ∧ StepsMeet step ok (step s l) ls))

variable {step}

/-- A condition on the labels alone. -/
theorem StepsMeet.of_forall {ok : L → Prop} {ls : List L} (h : ∀ l ∈ ls, ok l) (s : S) :
    StepsMeet step (fun _ l => ok l) s ls := by
  induction ls generalizing s with
  | nil => trivial
  | cons l ls ih =>
      exact ⟨h l List.mem_cons_self, ih (fun l' hl' => h l' (List.mem_cons_of_mem l hl')) _⟩

/-- A run that meets the condition splits into two that do. -/
theorem StepsMeet.append {ok : S → L → Prop} {s : S} {ls ls' : List L} :
    StepsMeet step ok s (ls ++ ls') ↔
      StepsMeet step ok s ls ∧ StepsMeet step ok (run step s ls) ls' := by
  induction ls generalizing s with
  | nil => simp [StepsMeet]
  | cons l ls ih => simp [StepsMeet, ih, and_assoc]

/-- **The ghost rule.** A machine whose states carry more than those of another meets the condition
of the other, if an invariant that its own condition preserves makes it so at each step. -/
theorem StepsMeet.map {T : Type*} {step' : T → L → T} (p : T → S)
    (hp : ∀ t l, p (step' t l) = step (p t) l) {ok' : T → L → Prop} {ok : S → L → Prop}
    {I : T → Prop} (hkeep : ∀ t l, I t → ok' t l → I (step' t l))
    (himp : ∀ t l, I t → ok' t l → ok (p t) l) {t : T} {ls : List L} (ht : I t)
    (h : StepsMeet step' ok' t ls) : StepsMeet step ok (p t) ls := by
  induction ls generalizing t with
  | nil => trivial
  | cons l ls ih =>
      refine ⟨himp t l ht h.1, ?_⟩
      rw [← hp]
      exact ih (hkeep t l ht h.1) h.2

/-- **The run rule.** An invariant that every step meeting the condition preserves holds after
every run whose steps all meet it. -/
theorem run_invariant {ok : S → L → Prop} {P : S → Prop}
    (hstep : ∀ s l, P s → ok s l → P (step s l)) {s : S} {ls : List L} (hs : P s)
    (h : StepsMeet step ok s ls) : P (run step s ls) := by
  induction ls generalizing s with
  | nil => exact hs
  | cons l ls ih => exact ih (hstep s l hs h.1) h.2

/-- **The exact run rule.** Where an invariant `I` that the steps meeting the condition preserve
makes the condition the one on which a step keeps `P`, `P` holds all along a run exactly if every
step meets the condition. -/
theorem run_holds_iff {ok : S → L → Prop} {I P : S → Prop}
    (hkeep : ∀ s l, I s → ok s l → I (step s l)) (hhold : ∀ s, I s → P s)
    (hstep : ∀ s l, I s → (P (step s l) ↔ ok s l)) {s : S} (hs : I s) (ls : List L) :
    (∀ n, P (run step s (ls.take n))) ↔ StepsMeet step ok s ls := by
  induction ls generalizing s with
  | nil => simp [StepsMeet, hhold s hs]
  | cons l ls ih =>
      constructor
      · intro h
        have hok : ok s l := (hstep s l hs).mp (h 1)
        exact ⟨hok, (ih (hkeep s l hs hok)).mp fun n => h (n + 1)⟩
      · rintro ⟨hok, hrest⟩ n
        cases n with
        | zero => exact hhold s hs
        | succ n => exact (ih (hkeep s l hs hok)).mpr hrest n

/-- The exact run rule where the invariant is what is asked for. -/
theorem run_invariant_iff {ok : S → L → Prop} {P : S → Prop}
    (hstep : ∀ s l, P s → (P (step s l) ↔ ok s l)) {s : S} (hs : P s) (ls : List L) :
    (∀ n, P (run step s (ls.take n))) ↔ StepsMeet step ok s ls :=
  run_holds_iff (fun s l hs hok => (hstep s l hs).mpr hok) (fun _ hs => hs) hstep hs ls

/-- The run rule without a condition on the steps. -/
theorem run_invariant_always {P : S → Prop} (hstep : ∀ s l, P s → P (step s l)) {s : S}
    (hs : P s) (ls : List L) : P (run step s ls) := by
  induction ls generalizing s with
  | nil => exact hs
  | cons l ls ih => exact ih (hstep s l hs)

/-- Machines whose steps agree as long as an invariant of one of them holds have the same runs. -/
theorem run_congr {step' : S → L → S} {P : S → Prop} (hstep : ∀ s l, P s → P (step s l))
    (heq : ∀ s l, P s → step' s l = step s l) {s : S} (hs : P s) (ls : List L) :
    run step' s ls = run step s ls := by
  induction ls generalizing s with
  | nil => rfl
  | cons l ls ih =>
      rw [run_cons, run_cons, heq s l hs]
      exact ih (hstep s l hs)

/-! ## What a machine reaches -/

variable (step) in
/-- Some labels that all meet a condition lead from a state to another. -/
def Reaches (ok : L → Prop) (s s' : S) : Prop := ∃ ls, (∀ l ∈ ls, ok l) ∧ run step s ls = s'

namespace Reaches

variable {ok : L → Prop} {s t u : S}

theorem refl (s : S) : Reaches step ok s s := ⟨[], nofun, rfl⟩

theorem of_eq (h : t = s) : Reaches step ok s t := h ▸ refl t

theorem single {l : L} (h : ok l) (s : S) : Reaches step ok s (step s l) :=
  ⟨[l], fun _ hl => List.mem_singleton.mp hl ▸ h, rfl⟩

theorem trans (h : Reaches step ok s t) (h' : Reaches step ok t u) : Reaches step ok s u := by
  obtain ⟨ls, hls, rfl⟩ := h
  obtain ⟨ls', hls', rfl⟩ := h'
  refine ⟨ls ++ ls', fun l hl => ?_, run_append step s ls ls'⟩
  exact (List.mem_append.mp hl).elim (hls l) (hls' l)

theorem mono {ok' : L → Prop} (himp : ∀ l, ok l → ok' l) (h : Reaches step ok s t) :
    Reaches step ok' s t := by
  obtain ⟨ls, hls, hrun⟩ := h
  exact ⟨ls, fun l hl => himp l (hls l hl), hrun⟩

/-- What all these labels preserve. -/
theorem invariant {P : S → Prop} (hstep : ∀ s l, P s → ok l → P (step s l))
    (h : Reaches step ok s t) (hs : P s) : P t := by
  obtain ⟨ls, hls, rfl⟩ := h
  exact run_invariant hstep hs (StepsMeet.of_forall hls s)

variable {T X : Type*}

/-- A loop each of whose rounds is such a run for what a map makes of the state. -/
theorem foldl_map {f : T → X → T} (p : T → S) {xs : List X}
    (hf : ∀ t, ∀ x ∈ xs, Reaches step ok (p t) (p (f t x))) (t : T) :
    Reaches step ok (p t) (p (xs.foldl f t)) := by
  induction xs generalizing t with
  | nil => exact refl _
  | cons x xs ih =>
      exact (hf t x List.mem_cons_self).trans
        (ih (fun t' x' hx' => hf t' x' (List.mem_cons_of_mem x hx')) (f t x))

/-- **The refinement rule.** If every step of a machine is a run of another for what a map makes of
the state, so are its runs. -/
theorem run_map {f : T → X → T} (p : T → S) (hf : ∀ t x, Reaches step ok (p t) (p (f t x)))
    (t : T) (xs : List X) : Reaches step ok (p t) (p (run f t xs)) :=
  foldl_map p (fun t x _ => hf t x) t

end Reaches

end Machine
