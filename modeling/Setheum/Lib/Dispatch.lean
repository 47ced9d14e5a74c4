import Mathlib.Logic.Basic

/-!
# State-changing calls that can fail

A dispatched call reads and writes a storage state and ends in a value or an error. It is
Lean's `EStateM`, whose error result carries the state too: what a call wrote before it failed
stays written unless the call is `transactional`. A proof about a successful call peels it apart
statement by statement with the inversion lemmas `run_bind_ok`, `run_ensure_ok` and the like, so
that no proof unfolds the monad.

* `transactional_error` — a transactional call that fails leaves the state as it was.
* `commit_transactional_invariant` — so an invariant need only survive the successful runs.
-/

set_option autoImplicit false

/-- A call on a storage state `σ` that returns an `α` or fails with an `ε`. -/
abbrev Dispatch (ε σ α : Type) := EStateM ε σ α

namespace Dispatch

variable {ε σ τ α β : Type}

/-- Fail with `e` unless the condition holds. -/
def ensure (p : Prop) [Decidable p] (e : ε) : Dispatch ε σ Unit :=
  if p then pure () else throw e

/-- Run the call only if the condition holds. -/
def when (p : Prop) [Decidable p] (x : Dispatch ε σ Unit) : Dispatch ε σ Unit :=
  if p then x else pure ()

/-- The value of an option, or the error `e`. -/
def okOr (o : Option α) (e : ε) : Dispatch ε σ α :=
  match o with
  | some a => pure a
  | none => throw e

/-- The outcome of a function that neither reads nor writes the state. -/
def ofExcept (x : Except ε α) : Dispatch ε σ α :=
  match x with
  | .ok a => pure a
  | .error e => throw e

/-- Run a fallible function of one component of the state and write its result back; `wrap`
turns the component's errors into the call's. -/
def onComponent {ε' : Type} (read : σ → τ) (write : τ → σ → σ) (wrap : ε' → ε)
    (f : τ → Except ε' τ) : Dispatch ε σ Unit :=
  fun s =>
    match f (read s) with
    | .ok t => .ok () (write t s)
    | .error e => .error (wrap e) s

/-- Run the call in a storage layer that is dropped when the call fails. -/
def transactional (x : Dispatch ε σ α) : Dispatch ε σ α := fun s =>
  match x s with
  | .ok a s' => .ok a s'
  | .error e _ => .error e s

/-- The state a call leaves behind, whether it succeeds or fails. -/
def commit (x : Dispatch ε σ α) (s : σ) : σ :=
  match x.run s with
  | .ok _ s' => s'
  | .error _ s' => s'

/-- Run the call and go on with its outcome, whichever it is. -/
def attempt (x : Dispatch ε σ α) : Dispatch ε σ (Except ε α) := fun s =>
  match x s with
  | .ok a s' => .ok (.ok a) s'
  | .error e s' => .ok (.error e) s'

/-- Fail with what a function makes of the error. -/
def wrapError {ε' : Type} (wrap : ε → ε') (x : Dispatch ε σ α) : Dispatch ε' σ α :=
  EStateM.adaptExcept wrap x

/-- Run the call and drop its outcome. -/
def ignore (x : Dispatch ε σ α) : Dispatch ε σ Unit := fun s => .ok () (commit x s)

/-- The call succeeds from this state. -/
def succeeds (x : Dispatch ε σ α) (s : σ) : Bool :=
  match x.run s with
  | .ok _ _ => true
  | .error _ _ => false

/-! ## Inversion of a successful run -/

theorem run_bind_ok {x : Dispatch ε σ α} {f : α → Dispatch ε σ β} {s s' : σ} {b : β} :
    (x >>= f).run s = .ok b s' ↔ ∃ a s₁, x.run s = .ok a s₁ ∧ (f a).run s₁ = .ok b s' := by
  show EStateM.bind x f s = _ ↔ _
  simp only [EStateM.bind, EStateM.run]
  cases x s with
  | ok a s₁ => simp [and_assoc]
  | error e s₁ => simp

theorem run_pure_ok {a b : α} {s s' : σ} :
    (pure a : Dispatch ε σ α).run s = .ok b s' ↔ a = b ∧ s = s' := by
  show EStateM.Result.ok a s = _ ↔ _
  simp

theorem run_throw_ok {e : ε} {b : α} {s s' : σ} :
    (throw e : Dispatch ε σ α).run s = .ok b s' ↔ False := by
  show EStateM.Result.error e s = _ ↔ _
  simp

@[simp] theorem run_throw (e : ε) (s : σ) :
    (throw e : Dispatch ε σ α).run s = .error e s := rfl

theorem run_get_ok {s s' t : σ} :
    (get : Dispatch ε σ σ).run s = .ok t s' ↔ s = t ∧ s = s' := by
  show EStateM.Result.ok s s = _ ↔ _
  simp

/-- Calls that go on alike from where their first part ends. -/
theorem run_bind_congr {x : Dispatch ε σ α} {f g : α → Dispatch ε σ β} {s : σ}
    (h : ∀ a s', x.run s = .ok a s' → (f a).run s' = (g a).run s') :
    (x >>= f).run s = (x >>= g).run s := by
  show EStateM.bind x f s = EStateM.bind x g s
  unfold EStateM.bind
  cases hx : x s with
  | ok a s' => exact h a s' hx
  | error e s' => rfl

theorem run_get_bind (f : σ → Dispatch ε σ α) (s : σ) :
    ((get : Dispatch ε σ σ) >>= f).run s = (f s).run s := rfl

theorem run_set_ok {s s' t : σ} {u : PUnit} :
    (set t : Dispatch ε σ PUnit).run s = .ok u s' ↔ t = s' := by
  show EStateM.Result.ok _ t = _ ↔ _
  simp

theorem run_modify_ok {f : σ → σ} {s s' : σ} {u : PUnit} :
    (modify f : Dispatch ε σ PUnit).run s = .ok u s' ↔ f s = s' := by
  show EStateM.Result.ok _ (f s) = _ ↔ _
  simp

theorem run_ensure_ok {p : Prop} [Decidable p] {e : ε} {s s' : σ} {u : Unit} :
    (ensure p e : Dispatch ε σ Unit).run s = .ok u s' ↔ p ∧ s = s' := by
  unfold ensure
  split
  · rename_i hp
    simp [hp]
  · rename_i hp
    simp [hp]

theorem run_okOr_ok {o : Option α} {e : ε} {s s' : σ} {a : α} :
    (okOr o e : Dispatch ε σ α).run s = .ok a s' ↔ o = some a ∧ s = s' := by
  unfold okOr
  cases o with
  | none => simp
  | some b => simp

theorem run_ofExcept_ok {x : Except ε α} {s s' : σ} {a : α} :
    (ofExcept x : Dispatch ε σ α).run s = .ok a s' ↔ x = .ok a ∧ s = s' := by
  unfold ofExcept
  cases x with
  | error e => simp
  | ok b => simp

theorem run_onComponent_ok {ε' : Type} {read : σ → τ} {write : τ → σ → σ} {wrap : ε' → ε}
    {f : τ → Except ε' τ} {s s' : σ} {u : Unit} :
    (onComponent read write wrap f).run s = .ok u s' ↔
      ∃ t, f (read s) = .ok t ∧ write t s = s' := by
  simp only [onComponent, EStateM.run]
  cases f (read s) <;> simp

theorem run_when_ok {p : Prop} [Decidable p] {x : Dispatch ε σ Unit} {s s' : σ} {u : Unit} :
    (when p x).run s = .ok u s' ↔ (p ∧ x.run s = .ok u s') ∨ (¬ p ∧ s = s') := by
  unfold when
  split
  · rename_i hp
    simp [hp]
  · rename_i hp
    simp [hp]

theorem run_transactional_ok {x : Dispatch ε σ α} {s s' : σ} {a : α} :
    (transactional x).run s = .ok a s' ↔ x.run s = .ok a s' := by
  simp only [transactional, EStateM.run]
  cases x s <;> simp

theorem run_attempt_ok {x : Dispatch ε σ α} {s s' : σ} {r : Except ε α} :
    (attempt x).run s = .ok r s' ↔
      (∃ a, x.run s = .ok a s' ∧ r = .ok a) ∨ (∃ e, x.run s = .error e s' ∧ r = .error e) := by
  simp only [attempt, EStateM.run]
  cases x s with
  | ok a s₁ =>
      constructor
      · rintro ⟨⟩
        exact .inl ⟨a, rfl, rfl⟩
      · rintro (⟨_, ⟨⟩, rfl⟩ | ⟨_, ⟨⟩, _⟩)
        rfl
  | error e s₁ =>
      constructor
      · rintro ⟨⟩
        exact .inr ⟨e, rfl, rfl⟩
      · rintro (⟨_, ⟨⟩, _⟩ | ⟨_, ⟨⟩, rfl⟩)
        rfl

theorem run_wrapError_ok {ε' : Type} {wrap : ε → ε'} {x : Dispatch ε σ α} {s s' : σ} {a : α} :
    (wrapError wrap x).run s = .ok a s' ↔ x.run s = .ok a s' := by
  simp only [wrapError, EStateM.adaptExcept, EStateM.run]
  cases x s with
  | ok a₀ s₀ => exact ⟨fun h => by cases h; rfl, fun h => by cases h; rfl⟩
  | error e₀ s₀ => exact iff_of_false nofun nofun

theorem run_ignore_ok {x : Dispatch ε σ α} {s s' : σ} {u : Unit} :
    (ignore x).run s = .ok u s' ↔ commit x s = s' := by
  simp [ignore, EStateM.run]

theorem run_forM_nil_ok {f : α → Dispatch ε σ PUnit} {s s' : σ} {u : PUnit} :
    ((([] : List α).forM f : Dispatch ε σ PUnit)).run s = .ok u s' ↔ s = s' := by
  show EStateM.Result.ok _ s = _ ↔ _
  simp

theorem run_forM_cons_ok {a : α} {l : List α} {f : α → Dispatch ε σ PUnit} {s s' : σ}
    {u : PUnit} :
    ((a :: l).forM f : Dispatch ε σ PUnit).run s = .ok u s' ↔
      ∃ v s₁, (f a).run s = .ok v s₁ ∧ (l.forM f).run s₁ = .ok u s' :=
  run_bind_ok

/-! ## Inversion of a failed run -/

theorem run_bind_error {x : Dispatch ε σ α} {f : α → Dispatch ε σ β} {s s' : σ} {e : ε} :
    (x >>= f).run s = .error e s' ↔
      x.run s = .error e s' ∨ ∃ a s₁, x.run s = .ok a s₁ ∧ (f a).run s₁ = .error e s' := by
  show EStateM.bind x f s = _ ↔ _
  simp only [EStateM.bind, EStateM.run]
  cases x s with
  | ok a s₁ => simp [and_assoc]
  | error e' s₁ => simp

theorem run_get_error {s s' : σ} {e : ε} :
    (get : Dispatch ε σ σ).run s = .error e s' ↔ False := by
  show EStateM.Result.ok s s = _ ↔ _
  simp

theorem run_set_error {s s' t : σ} {e : ε} :
    (set t : Dispatch ε σ PUnit).run s = .error e s' ↔ False := by
  show EStateM.Result.ok _ t = _ ↔ _
  simp

theorem run_modify_error {f : σ → σ} {s s' : σ} {e : ε} :
    (modify f : Dispatch ε σ PUnit).run s = .error e s' ↔ False := by
  show EStateM.Result.ok _ (f s) = _ ↔ _
  simp

theorem run_pure_error {a : α} {s s' : σ} {e : ε} :
    (pure a : Dispatch ε σ α).run s = .error e s' ↔ False := by
  show EStateM.Result.ok a s = _ ↔ _
  simp

theorem run_throw_error {e e' : ε} {s s' : σ} :
    (throw e : Dispatch ε σ α).run s = .error e' s' ↔ e = e' ∧ s = s' := by
  show EStateM.Result.error e s = _ ↔ _
  simp

theorem run_ensure_error {p : Prop} [Decidable p] {e e' : ε} {s s' : σ} :
    (ensure p e : Dispatch ε σ Unit).run s = .error e' s' ↔ ¬ p ∧ e = e' ∧ s = s' := by
  unfold ensure
  split
  · rename_i hp
    simp [hp]
  · rename_i hp
    simp [hp]

theorem run_okOr_error {o : Option α} {e e' : ε} {s s' : σ} :
    (okOr o e : Dispatch ε σ α).run s = .error e' s' ↔ o = none ∧ e = e' ∧ s = s' := by
  unfold okOr
  cases o with
  | none => simp
  | some b => simp

theorem run_ofExcept_error {x : Except ε α} {s s' : σ} {e : ε} :
    (ofExcept x : Dispatch ε σ α).run s = .error e s' ↔ x = .error e ∧ s = s' := by
  unfold ofExcept
  cases x with
  | error e' => simp
  | ok a => simp

theorem run_wrapError_error {ε' : Type} {wrap : ε → ε'} {x : Dispatch ε σ α} {s s' : σ}
    {e : ε'} :
    (wrapError wrap x).run s = .error e s' ↔ ∃ e₀, x.run s = .error e₀ s' ∧ wrap e₀ = e := by
  simp only [wrapError, EStateM.adaptExcept, EStateM.run]
  cases x s with
  | ok a₀ s₀ => exact iff_of_false nofun nofun
  | error e₀ s₀ =>
      constructor
      · intro h
        cases h
        exact ⟨e₀, rfl, rfl⟩
      · rintro ⟨e₁, h, rfl⟩
        cases h
        rfl

theorem run_ignore_error {x : Dispatch ε σ α} {s s' : σ} {e : ε} :
    (ignore x).run s = .error e s' ↔ False := by
  simp [ignore, EStateM.run]

theorem run_attempt_error {x : Dispatch ε σ α} {s s' : σ} {e : ε} :
    (attempt x).run s = .error e s' ↔ False := by
  simp only [attempt, EStateM.run]
  cases x s <;> simp

theorem run_when_error {p : Prop} [Decidable p] {x : Dispatch ε σ Unit} {s s' : σ} {e : ε} :
    (when p x).run s = .error e s' ↔ p ∧ x.run s = .error e s' := by
  unfold when
  split
  · rename_i hp
    simp [hp]
  · rename_i hp
    simp [hp]

theorem run_transactional_error {x : Dispatch ε σ α} {s s' : σ} {e : ε} :
    (transactional x).run s = .error e s' ↔ s = s' ∧ ∃ t, x.run s = .error e t := by
  simp only [transactional, EStateM.run]
  cases x s <;> simp [and_comm]

theorem run_onComponent_error {ε' : Type} {read : σ → τ} {write : τ → σ → σ} {wrap : ε' → ε}
    {f : τ → Except ε' τ} {s s' : σ} {e : ε} :
    (onComponent read write wrap f).run s = .error e s' ↔
      (∃ e', f (read s) = .error e' ∧ wrap e' = e) ∧ s = s' := by
  unfold onComponent EStateM.run
  cases h : f (read s) with
  | ok t => simp [h]
  | error e' => simp [h]

/-! ## What a call leaves behind -/

/-- **A transactional call that fails leaves the state as it was.** -/
theorem transactional_error {x : Dispatch ε σ α} {s s' : σ} {e : ε}
    (h : (transactional x).run s = .error e s') : s' = s := by
  simp only [transactional, EStateM.run] at h
  split at h
  · cases h
  · cases h
    rfl

theorem commit_of_ok {x : Dispatch ε σ α} {s s' : σ} {a : α} (h : x.run s = .ok a s') :
    commit x s = s' := by
  simp [commit, h]

theorem commit_of_error {x : Dispatch ε σ α} {s s' : σ} {e : ε} (h : x.run s = .error e s') :
    commit x s = s' := by
  simp [commit, h]

/-- A call goes on where its first part ends. -/
theorem commit_bind_of_ok {x : Dispatch ε σ α} {f : α → Dispatch ε σ β} {s s' : σ} {a : α}
    (h : x.run s = .ok a s') : commit (x >>= f) s = commit (f a) s' := by
  have hbind : (x >>= f).run s = EStateM.bind x f s := rfl
  have hx : x s = .ok a s' := h
  unfold commit
  rw [hbind]
  simp only [EStateM.bind, hx, EStateM.run]

/-- A call ends with the first part that fails. -/
theorem commit_bind_of_error {x : Dispatch ε σ α} {f : α → Dispatch ε σ β} {s s' : σ} {e : ε}
    (h : x.run s = .error e s') : commit (x >>= f) s = s' :=
  commit_of_error (run_bind_error.mpr (.inl h))

theorem succeeds_of_ok {x : Dispatch ε σ α} {s s' : σ} {a : α} (h : x.run s = .ok a s') :
    succeeds x s = true := by
  simp [succeeds, h]

theorem exists_run_ok {x : Dispatch ε σ α} {s : σ} (h : succeeds x s = true) :
    ∃ a s', x.run s = .ok a s' := by
  unfold succeeds at h
  split at h
  · rename_i a s' hx
    exact ⟨a, s', hx⟩
  · cases h

/-- Dropping what a call returns changes nothing. -/
theorem commit_bind_pure (x : Dispatch ε σ α) (b : β) (s : σ) :
    commit (x >>= fun _ => pure b) s = commit x s := by
  have hbind : (x >>= fun _ => pure b).run s = EStateM.bind x (fun _ => pure b) s := rfl
  unfold commit
  rw [hbind]
  simp only [EStateM.bind, EStateM.run]
  cases x s <;> rfl

/-- A call that returns nothing and succeeds ends in the state it leaves behind. -/
theorem run_eq_commit {x : Dispatch ε σ PUnit} {s : σ} (h : succeeds x s = true) :
    x.run s = .ok ⟨⟩ (commit x s) := by
  unfold succeeds at h
  split at h
  · rename_i a s' hx
    rw [hx, commit_of_ok hx]
  · cases h

/-- A transactional call either runs to its end or changes nothing. -/
theorem commit_transactional (x : Dispatch ε σ α) (s : σ) :
    (∃ a s', x.run s = .ok a s' ∧ commit (transactional x) s = s') ∨
      (succeeds (transactional x) s = false ∧ commit (transactional x) s = s) := by
  cases hx : (transactional x).run s with
  | ok a s' => exact .inl ⟨a, s', run_transactional_ok.mp hx, commit_of_ok hx⟩
  | error e s' =>
      have hs : s' = s := transactional_error hx
      subst hs
      exact .inr ⟨by simp [succeeds, hx], by simp [commit, hx]⟩

theorem commit_transactional_of_not_succeeds {x : Dispatch ε σ α} {s : σ}
    (h : succeeds (transactional x) s = false) : commit (transactional x) s = s := by
  rcases commit_transactional x s with ⟨a, s', hx, -⟩ | ⟨-, hc⟩
  · rw [succeeds_of_ok (run_transactional_ok.mpr hx)] at h
    cases h
  · exact hc

/-- What holds before a transactional call and after each of its successful runs holds after it,
whatever its outcome. -/
theorem commit_transactional_invariant {P : σ → Prop} {x : Dispatch ε σ α} {s : σ} (hs : P s)
    (hok : ∀ a s', x.run s = .ok a s' → P s') : P (commit (transactional x) s) := by
  rcases commit_transactional x s with ⟨a, s', hx, hc⟩ | ⟨-, hc⟩
  · rw [hc]
    exact hok a s' hx
  · rw [hc]
    exact hs

/-! ## What a call preserves, whatever its outcome -/

/-- The property holds after the call, successful or failed, if it holds before. -/
def Preserves (P : σ → Prop) (x : Dispatch ε σ α) : Prop := ∀ s, P s → P (commit x s)

variable {P : σ → Prop}

/-- **The sequencing rule.** -/
theorem preserves_bind {x : Dispatch ε σ α} {f : α → Dispatch ε σ β} (hx : Preserves P x)
    (hf : ∀ a, Preserves P (f a)) : Preserves P (x >>= f) := by
  intro s hs
  have hxs : P (commit x s) := hx s hs
  have hbind : (x >>= f).run s = EStateM.bind x f s := rfl
  unfold commit at hxs ⊢
  rw [hbind]
  simp only [EStateM.bind, EStateM.run] at hxs ⊢
  cases hrun : x s with
  | ok a s₁ =>
      rw [hrun] at hxs
      exact hf a s₁ hxs
  | error e s₁ =>
      rw [hrun] at hxs
      exact hxs

theorem preserves_pure (a : α) : Preserves P (pure a : Dispatch ε σ α) := fun _ hs => hs

theorem preserves_throw (e : ε) : Preserves P (throw e : Dispatch ε σ α) := fun _ hs => hs

theorem preserves_get : Preserves P (get : Dispatch ε σ σ) := fun _ hs => hs

theorem preserves_modify {f : σ → σ} (hf : ∀ s, P s → P (f s)) :
    Preserves P (modify f : Dispatch ε σ PUnit) := hf

theorem preserves_set {t : σ} (ht : P t) : Preserves P (set t : Dispatch ε σ PUnit) :=
  fun _ _ => ht

/-- What follows a read may count on the property of what was read. -/
theorem preserves_get_bind {f : σ → Dispatch ε σ α} (hf : ∀ s, P s → Preserves P (f s)) :
    Preserves P (get >>= f) := fun s hs => hf s hs s hs

theorem preserves_ensure {p : Prop} [Decidable p] {e : ε} :
    Preserves P (ensure p e : Dispatch ε σ Unit) := by
  unfold ensure
  split
  · exact preserves_pure ()
  · exact preserves_throw e

theorem preserves_okOr {o : Option α} {e : ε} : Preserves P (okOr o e : Dispatch ε σ α) := by
  unfold okOr
  cases o with
  | none => exact preserves_throw e
  | some a => exact preserves_pure a

theorem preserves_onComponent {ε' : Type} {read : σ → τ} {write : τ → σ → σ} {wrap : ε' → ε}
    {f : τ → Except ε' τ} (hwrite : ∀ s t, P s → P (write t s)) :
    Preserves P (onComponent read write wrap f) := by
  intro s hs
  simp only [commit, onComponent, EStateM.run]
  cases f (read s) with
  | ok t => exact hwrite s t hs
  | error e => exact hs

/-- The same where what the component becomes is known to come from its function. -/
theorem preserves_onComponent_of {ε' : Type} {read : σ → τ} {write : τ → σ → σ} {wrap : ε' → ε}
    {f : τ → Except ε' τ} (hwrite : ∀ s t, P s → f (read s) = .ok t → P (write t s)) :
    Preserves P (onComponent read write wrap f) := by
  intro s hs
  simp only [commit, onComponent, EStateM.run]
  cases hf : f (read s) with
  | ok t => exact hwrite s t hs hf
  | error e => exact hs

theorem preserves_ofExcept {x : Except ε α} :
    Preserves P (ofExcept x : Dispatch ε σ α) := by
  unfold ofExcept
  cases x with
  | ok a => exact preserves_pure a
  | error e => exact preserves_throw e

theorem preserves_when {p : Prop} [Decidable p] {x : Dispatch ε σ Unit} (hx : Preserves P x) :
    Preserves P (when p x) := by
  unfold when
  split
  · exact hx
  · exact preserves_pure ()

theorem preserves_attempt {x : Dispatch ε σ α} (hx : Preserves P x) : Preserves P (attempt x) := by
  intro s hs
  have h := hx s hs
  simp only [commit, attempt, EStateM.run] at h ⊢
  cases hrun : x s with
  | ok a s' =>
      rw [hrun] at h
      exact h
  | error e s' =>
      rw [hrun] at h
      exact h

/-- What a call preserves it preserves as a transactional call. -/
theorem preserves_transactional {x : Dispatch ε σ α} (hx : Preserves P x) :
    Preserves P (transactional x) := fun s hs =>
  commit_transactional_invariant hs fun _ _ hrun => by
    have hxs := hx s hs
    rwa [commit_of_ok hrun] at hxs

theorem preserves_forM {l : List α} {f : α → Dispatch ε σ PUnit} (hf : ∀ a, Preserves P (f a)) :
    Preserves P (l.forM f) := by
  induction l with
  | nil => exact preserves_pure PUnit.unit
  | cons a l ih => exact preserves_bind (hf a) fun _ => ih

theorem preserves_ignore {x : Dispatch ε σ α} (hx : Preserves P x) : Preserves P (ignore x) :=
  fun s hs => hx s hs

/-! ## Failing without a trace -/

/-- The call changes nothing, whatever its outcome. -/
def Silent (x : Dispatch ε σ α) : Prop := ∀ s, Preserves (fun t => t = s) x

/-- The call changes nothing if it fails. -/
def FailsClean (x : Dispatch ε σ α) : Prop :=
  ∀ ⦃s : σ⦄ ⦃e : ε⦄ ⦃s' : σ⦄, x.run s = .error e s' → s' = s

/-- The call never fails. -/
def NeverFails (x : Dispatch ε σ α) : Prop := ∀ s, succeeds x s = true

theorem silent_get : Silent (get : Dispatch ε σ σ) := fun _ => preserves_get

theorem silent_ensure {p : Prop} [Decidable p] {e : ε} :
    Silent (ensure p e : Dispatch ε σ Unit) := fun _ => preserves_ensure

theorem silent_okOr {o : Option α} {e : ε} : Silent (okOr o e : Dispatch ε σ α) :=
  fun _ => preserves_okOr

theorem silent_ofExcept {x : Except ε α} : Silent (ofExcept x : Dispatch ε σ α) :=
  fun _ => preserves_ofExcept

theorem Silent.commit_eq {x : Dispatch ε σ α} (hx : Silent x) (s : σ) : commit x s = s :=
  hx s s rfl

theorem Silent.preserves {x : Dispatch ε σ α} (hx : Silent x) : Preserves P x := fun s hs => by
  rw [hx.commit_eq]
  exact hs

/-- What runs before the first write may fail. -/
theorem failsClean_bind {x : Dispatch ε σ α} {f : α → Dispatch ε σ β} (hx : Silent x)
    (hf : ∀ a, FailsClean (f a)) : FailsClean (x >>= f) := by
  intro s e s' h
  have hxs : commit x s = s := hx.commit_eq s
  change EStateM.bind x f s = _ at h
  unfold commit at hxs
  simp only [EStateM.bind, EStateM.run] at hxs h
  cases hrun : x s with
  | ok a s₁ =>
      rw [hrun] at hxs h
      cases hxs
      exact hf a h
  | error e' s₁ =>
      rw [hrun] at hxs h
      cases hxs
      cases h
      rfl

/-- What follows the last statement that can fail may write. -/
theorem failsClean_bind_neverFails {x : Dispatch ε σ α} {f : α → Dispatch ε σ β}
    (hx : FailsClean x) (hf : ∀ a, NeverFails (f a)) : FailsClean (x >>= f) := by
  intro s e s' h
  change EStateM.bind x f s = _ at h
  simp only [EStateM.bind] at h
  cases hrun : x s with
  | ok a s₁ =>
      rw [hrun] at h
      have hs : succeeds (f a) s₁ = true := hf a s₁
      have hfa : (f a).run s₁ = .error e s' := h
      simp [succeeds, hfa] at hs
  | error e' s₁ =>
      rw [hrun] at h
      cases h
      exact hx hrun

theorem failsClean_throw (e : ε) : FailsClean (throw e : Dispatch ε σ α) := by
  intro s e' s' h
  change EStateM.Result.error e s = _ at h
  cases h
  rfl

theorem failsClean_transactional (x : Dispatch ε σ α) : FailsClean (transactional x) :=
  fun _ _ _ => transactional_error

theorem FailsClean.wrapError {ε' : Type} {x : Dispatch ε σ α} (hx : FailsClean x)
    (wrap : ε → ε') : FailsClean (wrapError wrap x) := by
  intro s e s' h
  simp only [Dispatch.wrapError, EStateM.adaptExcept, EStateM.run] at h
  cases hrun : x s with
  | ok a₀ s₀ =>
      rw [hrun] at h
      cases h
  | error e₀ s₀ =>
      rw [hrun] at h
      cases h
      exact hx hrun

theorem NeverFails.failsClean {x : Dispatch ε σ α} (hx : NeverFails x) : FailsClean x := by
  intro s e s' h
  have hs : succeeds x s = true := hx s
  simp [succeeds, h] at hs

theorem neverFails_pure (a : α) : NeverFails (pure a : Dispatch ε σ α) := fun _ => rfl

theorem neverFails_get : NeverFails (get : Dispatch ε σ σ) := fun _ => rfl

theorem neverFails_set (t : σ) : NeverFails (set t : Dispatch ε σ PUnit) := fun _ => rfl

theorem neverFails_modify (f : σ → σ) : NeverFails (modify f : Dispatch ε σ PUnit) :=
  fun _ => rfl

theorem neverFails_ensure {p : Prop} [Decidable p] {e : ε} (hp : p) :
    NeverFails (ensure p e : Dispatch ε σ Unit) := by
  unfold ensure
  rw [if_pos hp]
  exact fun _ => rfl

theorem neverFails_ignore (x : Dispatch ε σ α) : NeverFails (ignore x) := fun _ => rfl

theorem neverFails_bind {x : Dispatch ε σ α} {f : α → Dispatch ε σ β} (hx : NeverFails x)
    (hf : ∀ a, NeverFails (f a)) : NeverFails (x >>= f) := by
  intro s
  have hxs : succeeds x s = true := hx s
  have hbind : (x >>= f).run s = EStateM.bind x f s := rfl
  unfold succeeds at hxs ⊢
  rw [hbind]
  simp only [EStateM.bind, EStateM.run] at hxs ⊢
  cases hrun : x s with
  | ok a s₁ => exact hf a s₁
  | error e s₁ =>
      rw [hrun] at hxs
      cases hxs

theorem failsClean_modify (f : σ → σ) : FailsClean (modify f : Dispatch ε σ PUnit) :=
  (neverFails_modify f).failsClean

theorem failsClean_set (t : σ) : FailsClean (set t : Dispatch ε σ PUnit) :=
  (neverFails_set t).failsClean

theorem failsClean_onComponent {ε' : Type} {read : σ → τ} {write : τ → σ → σ} {wrap : ε' → ε}
    {f : τ → Except ε' τ} : FailsClean (onComponent read write wrap f) :=
  fun _ _ _ h => (run_onComponent_error.mp h).2.symm

theorem failsClean_when {p : Prop} [Decidable p] {x : Dispatch ε σ Unit} (hx : FailsClean x) :
    FailsClean (when p x) := by
  unfold when
  split
  · exact hx
  · exact (neverFails_pure ()).failsClean

/-- A call that fails clean either succeeds or leaves the state as it was. -/
theorem FailsClean.commit_cases {x : Dispatch ε σ α} (hx : FailsClean x) (s : σ) :
    (∃ a, x.run s = .ok a (commit x s)) ∨ commit x s = s := by
  cases hrun : x.run s with
  | ok a s' => exact .inl ⟨a, by rw [commit_of_ok hrun]⟩
  | error e s' => exact .inr (by simp [commit, hrun, hx hrun])

end Dispatch
