import Mathlib.Algebra.Order.Group.Multiset
import Mathlib.Tactic.Abel
import Setheum.Lib.Run

/-!
# Queues that release what they hold after a delay

Things are queued in the current period and released when a number of later periods is over, unless
they are cancelled; without a delay they are released at once. The queue keeps what is pending in
each period and the earliest period it may hold something for. `queued`, `released` and `cancelled`
are its history.

* `Settled.apply` — every operation keeps the accounts.
* `settled_of_run` — what was queued is pending, released when it was due, or cancelled, each once.
-/

set_option autoImplicit false

namespace DelayedQueue

structure Queue (α : Type*) where
  /-- The current period, if there is one. -/
  now : Option ℕ
  earliest : Option ℕ
  pending : ℕ → List α
  queued : List (ℕ × α)
  /-- With the period it was queued in and the one it was released in. -/
  released : List (ℕ × ℕ × α)
  cancelled : List (ℕ × α)

inductive Op (α : Type*)
  | note
  | push (a : α)
  | advance
  | cancel (period : ℕ) (indices : List ℕ)

variable {α : Type*}

/-! ## Positions of a list -/

/-- The elements at other positions. -/
def keepAt (indices : List ℕ) (l : List α) : List α :=
  (l.zipIdx.filter fun x => x.2 ∉ indices).map Prod.fst

/-- The elements at these positions. -/
def takeAt (indices : List ℕ) (l : List α) : List α :=
  (l.zipIdx.filter fun x => x.2 ∈ indices).map Prod.fst

theorem keepAt_sublist (indices : List ℕ) (l : List α) : (keepAt indices l).Sublist l := by
  have h := (List.filter_sublist (p := fun x : α × ℕ => decide (x.2 ∉ indices))
    (l := l.zipIdx)).map Prod.fst
  rwa [List.zipIdx_map_fst] at h

theorem keepAt_append_takeAt (indices : List ℕ) (l : List α) :
    (keepAt indices l ++ takeAt indices l).Perm l := by
  have hsplit := List.filter_append_perm (fun x : α × ℕ => decide (x.2 ∈ indices)) l.zipIdx
  have h := (List.perm_append_comm.trans hsplit).map Prod.fst
  rw [List.map_append, List.zipIdx_map_fst] at h
  simpa [keepAt, takeAt] using h

/-! ## Operations -/

namespace Queue

def empty : Queue α := ⟨none, none, fun _ => [], [], [], []⟩

/-- From now on the queue may hold something. -/
def note (q : Queue α) : Queue α :=
  match q.now with
  | none => q
  | some n => { q with earliest := some (q.earliest.getD n) }

def push (delay : ℕ) (q : Queue α) (a : α) : Queue α :=
  match q.now with
  | none => q
  | some n =>
      if delay = 0 then
        { q with
          earliest := some (q.earliest.getD n)
          queued := q.queued ++ [(n, a)]
          released := q.released ++ [(n, n, a)] }
      else
        { q with
          earliest := some (q.earliest.getD n)
          pending := Function.update q.pending n (q.pending n ++ [a])
          queued := q.queued ++ [(n, a)] }

/-- Release what is pending in a period. -/
def release (now : ℕ) (q : Queue α) (period : ℕ) : Queue α :=
  { q with
    pending := Function.update q.pending period []
    released := q.released ++ (q.pending period).map fun a => (period, now, a) }

def next (now : Option ℕ) : ℕ := now.elim 0 (· + 1)

/-- The next period begins, and the periods whose delay is over are released. -/
def advance (delay : ℕ) (q : Queue α) : Queue α :=
  let n := next q.now
  match q.earliest with
  | none => { q with now := some n }
  | some earliest =>
      { (List.range' earliest (n - delay - earliest)).foldl (release n) q with
        now := some n
        earliest := some (max earliest (n - delay)) }

def cancel (q : Queue α) (period : ℕ) (indices : List ℕ) : Queue α :=
  { q with
    pending := Function.update q.pending period (keepAt indices (q.pending period))
    cancelled := q.cancelled ++ (takeAt indices (q.pending period)).map fun a => (period, a) }

def apply (delay : ℕ) (q : Queue α) : Op α → Queue α
  | .note => q.note
  | .push a => q.push delay a
  | .advance => q.advance delay
  | .cancel period indices => q.cancel period indices

/-! ## Accounts -/

/-- What a history says about a period. -/
def inPeriod {β : Type*} (period : ℕ) (l : List (ℕ × β)) : List β :=
  l.filterMap fun x => if x.1 = period then some x.2 else none

theorem inPeriod_append {β : Type*} (period : ℕ) (l l' : List (ℕ × β)) :
    inPeriod period (l ++ l') = inPeriod period l ++ inPeriod period l' :=
  List.filterMap_append

theorem inPeriod_map {β : Type*} (period p : ℕ) (xs : List α) (f : α → β) :
    inPeriod p (xs.map fun a => (period, f a)) = if period = p then xs.map f else [] := by
  unfold inPeriod
  rw [List.filterMap_map]
  by_cases hp : period = p
  · subst hp
    simp
  · simp [hp]

theorem inPeriod_pairs (period p : ℕ) (xs : List α) :
    inPeriod p (xs.map fun a => (period, a)) = if period = p then xs else [] :=
  (inPeriod_map period p xs id).trans (by rw [List.map_id])

theorem inPeriod_singleton {β : Type*} (period p : ℕ) (b : β) :
    inPeriod p [(period, b)] = if period = p then [b] else [] :=
  inPeriod_map period p [b] id

def queuedIn (q : Queue α) (period : ℕ) : List α := inPeriod period q.queued

def releasedFrom (q : Queue α) (period : ℕ) : List α :=
  (inPeriod period q.released).map Prod.snd

def cancelledFrom (q : Queue α) (period : ℕ) : List α := inPeriod period q.cancelled

/-- When something is released. -/
def dueAt (delay period : ℕ) : ℕ := if delay = 0 then period else period + delay + 1

/-- What was queued is accounted for. -/
structure Settled (delay : ℕ) (q : Queue α) : Prop where
  accounted : ∀ period, (q.queuedIn period).Perm
    (q.releasedFrom period ++ q.pending period ++ q.cancelledFrom period)
  inOrder : ∀ period, (q.releasedFrom period ++ q.pending period).Sublist (q.queuedIn period)
  due : ∀ x ∈ q.released, x.2.1 = dueAt delay x.1
  waiting : ∀ period, q.pending period ≠ [] → ∃ now earliest, q.now = some now ∧
    q.earliest = some earliest ∧ earliest ≤ period ∧ period ≤ now ∧ now ≤ period + delay ∧
    delay ≠ 0
  early : ∀ earliest, q.earliest = some earliest → ∃ now, q.now = some now ∧ earliest ≤ now

/-! ## Operations keep the accounts -/

variable {delay : ℕ} {q : Queue α}

theorem settled_empty : (empty : Queue α).Settled delay where
  accounted _ := .nil
  inOrder _ := .refl _
  due _ hx := absurd hx List.not_mem_nil
  waiting _ h := absurd rfl h
  early _ h := nomatch h

theorem note_eq (hnow : q.now = none) : q.note = q := by
  unfold note
  rw [hnow]

theorem note_eq_some {n : ℕ} (hnow : q.now = some n) :
    q.note = { q with earliest := some (q.earliest.getD n) } := by
  unfold note
  rw [hnow]

/-- Where the queue may hold something from. -/
theorem Settled.getD_le (h : q.Settled delay) {n : ℕ} (hnow : q.now = some n) :
    q.earliest.getD n ≤ n := by
  cases hearliest : q.earliest with
  | none => exact le_refl n
  | some e =>
      obtain ⟨now, hnow', hle⟩ := h.early e hearliest
      rw [hnow, Option.some.injEq] at hnow'
      subst hnow'
      exact hle

theorem Settled.note (h : q.Settled delay) : q.note.Settled delay := by
  cases hnow : q.now with
  | none => rwa [note_eq hnow]
  | some n =>
      rw [note_eq_some hnow]
      refine ⟨h.accounted, h.inOrder, h.due, fun period hp => ?_, fun e he => ?_⟩
      · obtain ⟨now, earliest, hnow', hearliest, hwait⟩ := h.waiting period hp
        exact ⟨now, earliest, hnow', by rw [hearliest]; rfl, hwait⟩
      · obtain rfl := Option.some.inj he
        exact ⟨n, hnow, h.getD_le hnow⟩

/-- Without a delay nothing is ever pending. -/
theorem Settled.pending_eq_nil (h : q.Settled 0) (period : ℕ) : q.pending period = [] := by
  by_contra hp
  obtain ⟨-, -, -, -, -, -, -, hdelay⟩ := h.waiting period hp
  exact hdelay rfl

theorem push_eq (hnow : q.now = none) (a : α) : q.push delay a = q := by
  unfold push
  rw [hnow]

theorem push_zero {n : ℕ} (hnow : q.now = some n) (a : α) :
    q.push 0 a = { q with
      earliest := some (q.earliest.getD n)
      queued := q.queued ++ [(n, a)]
      released := q.released ++ [(n, n, a)] } := by
  unfold push
  rw [hnow]
  rfl

theorem push_pos {n : ℕ} (hnow : q.now = some n) (hdelay : delay ≠ 0) (a : α) :
    q.push delay a = { q with
      earliest := some (q.earliest.getD n)
      pending := Function.update q.pending n (q.pending n ++ [a])
      queued := q.queued ++ [(n, a)] } := by
  unfold push
  rw [hnow]
  exact if_neg hdelay

theorem Settled.push (h : q.Settled delay) (a : α) : (q.push delay a).Settled delay := by
  cases hnow : q.now with
  | none => rwa [push_eq hnow]
  | some n =>
      by_cases hdelay : delay = 0
      · subst hdelay
        rw [push_zero hnow]
        refine ⟨fun p => ?_, fun p => ?_, fun x hx => ?_, fun p hp => ?_, fun e he => ?_⟩
        · have haccounted := h.accounted p
          simp only [queuedIn, releasedFrom, cancelledFrom, inPeriod_append, inPeriod_singleton,
            List.map_append, ← Multiset.coe_eq_coe, ← Multiset.coe_add] at haccounted ⊢
          rw [haccounted]
          split
          · simp only [List.map_cons, List.map_nil]
            abel
          · simp only [List.map_nil]
            abel
        · have horder := h.inOrder p
          simp only [queuedIn, releasedFrom, inPeriod_append, inPeriod_singleton,
            List.map_append, h.pending_eq_nil p, List.append_nil] at horder ⊢
          refine horder.append ?_
          split
          · exact .refl _
          · exact .refl _
        · rcases List.mem_append.mp hx with hx | hx
          · exact h.due x hx
          · obtain rfl := List.mem_singleton.mp hx
            rfl
        · exact absurd (h.pending_eq_nil p) hp
        · obtain rfl := Option.some.inj he
          exact ⟨n, hnow, h.getD_le hnow⟩
      · rw [push_pos hnow hdelay]
        refine ⟨fun p => ?_, fun p => ?_, h.due, fun p hp => ?_, fun e he => ?_⟩
        · have haccounted := h.accounted p
          simp only [queuedIn, releasedFrom, cancelledFrom, inPeriod_append, inPeriod_singleton,
            ← Multiset.coe_eq_coe, ← Multiset.coe_add] at haccounted ⊢
          rw [haccounted]
          by_cases hp : n = p
          · subst hp
            simp only [Function.update_self, if_true, ← Multiset.coe_add]
            abel
          · simp only [Function.update_of_ne (Ne.symm hp), if_neg hp, Multiset.coe_nil, add_zero]
        · have horder := h.inOrder p
          simp only [queuedIn, releasedFrom, inPeriod_append, inPeriod_singleton] at horder ⊢
          by_cases hp : n = p
          · subst hp
            rw [Function.update_self, if_pos rfl, ← List.append_assoc]
            exact horder.append (.refl _)
          · rw [Function.update_of_ne (Ne.symm hp), if_neg hp, List.append_nil]
            exact horder
        · by_cases hpn : p = n
          · subst hpn
            exact ⟨p, _, hnow, rfl, h.getD_le hnow, le_refl _, Nat.le_add_right _ _, hdelay⟩
          · have hp' : q.pending p ≠ [] := by
              intro hnil
              refine hp ?_
              show Function.update q.pending n (q.pending n ++ [a]) p = []
              rw [Function.update_of_ne hpn, hnil]
            obtain ⟨now, earliest, hnow', hearliest, hwait⟩ := h.waiting p hp'
            exact ⟨now, earliest, hnow', by rw [hearliest]; rfl, hwait⟩
        · obtain rfl := Option.some.inj he
          exact ⟨n, hnow, h.getD_le hnow⟩

theorem Settled.cancel (h : q.Settled delay) (period : ℕ) (indices : List ℕ) :
    (q.cancel period indices).Settled delay := by
  refine ⟨fun p => ?_, fun p => ?_, h.due, fun p hp => ?_, h.early⟩
  · have haccounted := h.accounted p
    simp only [queuedIn, releasedFrom, cancelledFrom, Queue.cancel, inPeriod_append,
      inPeriod_pairs, ← Multiset.coe_eq_coe, ← Multiset.coe_add] at haccounted ⊢
    rw [haccounted]
    by_cases hp : period = p
    · subst hp
      have hsplit := Multiset.coe_eq_coe.mpr (keepAt_append_takeAt indices (q.pending period))
      rw [← Multiset.coe_add] at hsplit
      rw [Function.update_self, if_pos rfl, ← hsplit]
      abel
    · rw [Function.update_of_ne (Ne.symm hp), if_neg hp, Multiset.coe_nil, add_zero]
  · have horder := h.inOrder p
    by_cases hp : period = p
    · subst hp
      simp only [releasedFrom, queuedIn, Queue.cancel, Function.update_self] at horder ⊢
      exact ((List.Sublist.refl _).append (keepAt_sublist _ _)).trans horder
    · simp only [releasedFrom, queuedIn, Queue.cancel, Function.update_of_ne (Ne.symm hp)]
        at horder ⊢
      exact horder
  · refine h.waiting p fun hnil => hp ?_
    by_cases hpp : p = period
    · subst hpp
      show Function.update q.pending p _ p = []
      rw [Function.update_self, hnil]
      rfl
    · show Function.update q.pending period _ p = []
      rw [Function.update_of_ne hpp, hnil]

/-- What the release of some periods does. -/
structure Releases (now : ℕ) (periods : List ℕ) (q q' : Queue α) : Prop where
  pending : ∀ p, q'.pending p = if p ∈ periods then [] else q.pending p
  released : ∀ p, q'.releasedFrom p = q.releasedFrom p ++ if p ∈ periods then q.pending p else []
  mem_released : ∀ x ∈ q'.released, x ∈ q.released ∨
    x.1 ∈ periods ∧ x.2.1 = now ∧ q.pending x.1 ≠ []
  queued : q'.queued = q.queued
  cancelled : q'.cancelled = q.cancelled

theorem releases_foldl (now : ℕ) (periods : List ℕ) (q : Queue α) :
    Releases now periods q (periods.foldl (release now) q) := by
  induction periods generalizing q with
  | nil =>
      refine ⟨fun p => ?_, fun p => ?_, fun x hx => .inl hx, rfl, rfl⟩
      · simp
      · simp
  | cons period periods ih =>
      obtain ⟨hpending, hreleased, hmem, hqueued, hcancelled⟩ := ih (q.release now period)
      have hstep : ∀ p, (q.release now period).pending p
          = if p = period then [] else q.pending p := by
        intro p
        show Function.update q.pending period [] p = _
        rw [Function.update_apply]
      have hstepReleased : ∀ p, (q.release now period).releasedFrom p
          = q.releasedFrom p ++ if period = p then q.pending period else [] := by
        intro p
        simp only [releasedFrom, release, inPeriod_append, inPeriod_map, List.map_append]
        split
        · simp [Function.comp_def]
        · simp
      rw [List.foldl_cons]
      refine ⟨fun p => ?_, fun p => ?_, fun x hx => ?_, hqueued, hcancelled⟩
      · rw [hpending, hstep]
        by_cases hp : p = period
        · simp [hp]
        · simp [hp]
      · rw [hreleased, hstepReleased, hstep]
        by_cases hp : p = period
        · subst hp
          simp
        · simp [hp, Ne.symm hp]
      · rcases hmem x hx with hx | ⟨hin, hat, hne⟩
        · rcases List.mem_append.mp hx with hx | hx
          · exact .inl hx
          · obtain ⟨a, ha, rfl⟩ := List.mem_map.mp hx
            exact .inr ⟨List.mem_cons_self, rfl, List.ne_nil_of_mem ha⟩
        · refine .inr ⟨List.mem_cons_of_mem _ hin, hat, ?_⟩
          rw [hstep] at hne
          split at hne
          · exact absurd rfl hne
          · exact hne

theorem advance_none (hearliest : q.earliest = none) :
    q.advance delay = { q with now := some (next q.now) } := by
  unfold advance
  rw [hearliest]

theorem advance_some {earliest : ℕ} (hearliest : q.earliest = some earliest) :
    q.advance delay =
      { (List.range' earliest (next q.now - delay - earliest)).foldl (release (next q.now)) q with
        now := some (next q.now)
        earliest := some (max earliest (next q.now - delay)) } := by
  unfold advance
  rw [hearliest]

theorem Settled.advance (h : q.Settled delay) : (q.advance delay).Settled delay := by
  cases hearliest : q.earliest with
  | none =>
      rw [advance_none hearliest]
      refine ⟨h.accounted, h.inOrder, h.due, fun p hp => ?_, fun e he => ?_⟩
      · obtain ⟨-, earliest, -, hsome, -⟩ := h.waiting p hp
        rw [hearliest] at hsome
        cases hsome
      · rw [hearliest] at he
        cases he
  | some earliest =>
      obtain ⟨n, hnow, hle⟩ := h.early earliest hearliest
      have hnext : next q.now = n + 1 := by rw [hnow]; rfl
      rw [advance_some hearliest, hnext]
      have hreleases := releases_foldl (n + 1)
        (List.range' earliest (n + 1 - delay - earliest)) q
      have hin : ∀ p, p ∈ List.range' earliest (n + 1 - delay - earliest) ↔
          earliest ≤ p ∧ p + delay < n + 1 := by
        intro p
        rw [List.mem_range'_1]
        omega
      have hwaiting : ∀ p, q.pending p ≠ [] → earliest ≤ p ∧ p ≤ n ∧ n ≤ p + delay ∧
          delay ≠ 0 := by
        intro p hp
        obtain ⟨now, e, hnow', he, hwait⟩ := h.waiting p hp
        rw [hnow, Option.some.injEq] at hnow'
        rw [hearliest, Option.some.injEq] at he
        subst hnow' he
        exact hwait
      generalize (List.range' earliest (n + 1 - delay - earliest)).foldl (release (n + 1)) q = q'
        at hreleases ⊢
      -- a period is released or stays as it is
      have hkept : ∀ p, q'.releasedFrom p ++ q'.pending p
          = q.releasedFrom p ++ q.pending p := by
        intro p
        rw [hreleases.pending, hreleases.released, List.append_assoc]
        split
        · rw [List.append_nil]
        · rfl
      refine ⟨fun p => ?_, fun p => ?_, fun x hx => ?_, fun p hp => ?_, fun e he => ?_⟩
      · have haccounted := h.accounted p
        rw [← hkept] at haccounted
        simp only [queuedIn, cancelledFrom, ← hreleases.queued, ← hreleases.cancelled]
          at haccounted
        exact haccounted
      · have horder := h.inOrder p
        rw [← hkept] at horder
        simp only [queuedIn, ← hreleases.queued] at horder
        exact horder
      · rcases hreleases.mem_released x hx with hx | ⟨hmem, hat, hne⟩
        · exact h.due x hx
        · obtain ⟨-, -, hle', hdelay⟩ := hwaiting x.1 hne
          have hlate := ((hin x.1).mp hmem).2
          rw [hat, dueAt, if_neg hdelay]
          omega
      · have hpending : q'.pending p ≠ [] := hp
        rw [hreleases.pending] at hpending
        split at hpending
        · exact absurd rfl hpending
        · rename_i hout
          rw [hin] at hout
          obtain ⟨hfrom, hto, hle', hdelay⟩ := hwaiting p hpending
          exact ⟨n + 1, max earliest (n + 1 - delay), rfl, rfl, by omega, by omega, by omega,
            hdelay⟩
      · obtain rfl := Option.some.inj he
        exact ⟨n + 1, rfl, by omega⟩

/-- **Every operation keeps the accounts.** -/
theorem Settled.apply (h : q.Settled delay) (op : Op α) : (q.apply delay op).Settled delay := by
  cases op with
  | note => exact h.note
  | push a => exact h.push a
  | advance => exact h.advance
  | cancel period indices => exact h.cancel period indices

/-- **What was queued is pending, released when it was due, or cancelled, each once.** -/
theorem settled_of_run (delay : ℕ) (ops : List (Op α)) :
    (Machine.run (apply delay) empty ops).Settled delay :=
  Machine.run_invariant_always (fun _ op h => h.apply op) settled_empty ops

end Queue

end DelayedQueue
