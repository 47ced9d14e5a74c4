import Setheum.Staking.OffenceEffects

/-!
# Deferred slashes

The slashes that wait to be applied are a `DelayedQueue` whose periods are the active eras: a report
pushes to it, the start of an era advances it and `cancel_deferred_slash` cancels in it. So over
every run a slash is applied once, in the era in which it is due, or cancelled, or still waiting.

* `cancelDeferredSlash_outcome` — what a call cancels.
* `offenceStep_queue` — a step of the chain is a run of the queue.
* `slashes_settled` — what becomes of all slashes.
-/

set_option autoImplicit false

namespace Setheum.Staking

open Machine Checked DelayedQueue

variable {A : Type} [DecidableEq A] {cfg : OffenceConfig A}

/-! ## Cancelling -/

section Cancel

variable {α : Type}

theorem isSortedAndUnique_iff {l : List ℕ} : isSortedAndUnique l = true ↔ l.Pairwise (· < ·) := by
  unfold isSortedAndUnique
  rw [← List.isChain_iff_pairwise]
  induction l with
  | nil => simp
  | cons n l ih =>
      cases l with
      | nil => simp
      | cons m l =>
          rw [List.isChain_cons_cons, ← ih]
          simp

/-- What `keepAt` keeps of a list whose first position is `start`. -/
def keptFrom (start : ℕ) (indices : List ℕ) (l : List α) : List α :=
  ((l.zipIdx start).filter fun x => x.2 ∉ indices).map Prod.fst

theorem keptFrom_append (start : ℕ) (indices : List ℕ) (l l' : List α) :
    keptFrom start indices (l ++ l')
      = keptFrom start indices l ++ keptFrom (start + l.length) indices l' := by
  unfold keptFrom
  rw [List.zipIdx_append, List.filter_append, List.map_append]

/-- A list before all the indices is kept. -/
theorem keptFrom_eq_self {start : ℕ} {indices : List ℕ} {l : List α}
    (h : ∀ i ∈ indices, start + l.length ≤ i) : keptFrom start indices l = l := by
  unfold keptFrom
  rw [List.filter_eq_self.mpr, List.zipIdx_map_fst]
  intro x hx
  have hlt := (List.mem_zipIdx hx).2.1
  simp only [decide_eq_true_eq]
  intro hmem
  have hle := h x.2 hmem
  omega

/-- An index before the list makes no difference. -/
theorem keptFrom_cons {start i : ℕ} {indices : List ℕ} {l : List α} (h : i < start) :
    keptFrom start (i :: indices) l = keptFrom start indices l := by
  unfold keptFrom
  congr 1
  refine List.filter_congr fun x hx => ?_
  have hle := (List.mem_zipIdx hx).1
  have hne : x.2 ≠ i := by omega
  simp [hne]

theorem removeIndex_append {pre suf : List α} {k : ℕ} (hk : k < suf.length) :
    removeIndex (pre ++ suf) (pre.length + k)
      = .ok (pre ++ suf.take k ++ suf.drop (k + 1)) := by
  unfold removeIndex
  rw [if_pos (by rw [List.length_append]; omega), List.eraseIdx_append_of_length_le (by omega),
    Nat.add_sub_cancel_left, List.eraseIdx_eq_take_drop_succ, List.append_assoc]

/-- The loop, when the elements from `pre` on are those from a position on that is at most the next
index. -/
theorem removeIndices_append {indices : List ℕ} (hsorted : indices.Pairwise (· < ·))
    {removed : ℕ} {pre suf : List α}
    (hin : ∀ i ∈ indices, pre.length + removed ≤ i ∧ i < pre.length + removed + suf.length) :
    removeIndices indices removed (pre ++ suf)
      = .ok (pre ++ keptFrom (pre.length + removed) indices suf) := by
  induction indices generalizing removed pre suf with
  | nil => rw [removeIndices, keptFrom_eq_self fun i hi => absurd hi List.not_mem_nil]
  | cons i indices ih =>
      obtain ⟨hlt, hrest⟩ := List.pairwise_cons.mp hsorted
      obtain ⟨hle, hbound⟩ := hin i List.mem_cons_self
      -- the next index is at position `k` of what is left
      obtain ⟨k, rfl⟩ := Nat.exists_eq_add_of_le hle
      have hk : k < suf.length := by omega
      have hstep : removeIndices ((pre.length + removed + k) :: indices) removed (pre ++ suf)
          = removeIndices indices (removed + 1) (pre ++ suf.take k ++ suf.drop (k + 1)) := by
        rw [removeIndices, if_neg (by omega),
          show pre.length + removed + k - removed = pre.length + k by omega,
          removeIndex_append hk]
        rfl
      have hlength : (pre ++ suf.take k).length + (removed + 1) = pre.length + removed + k + 1 := by
        rw [List.length_append, List.length_take, Nat.min_eq_left hk.le]
        omega
      have hkept : keptFrom (pre.length + removed) ((pre.length + removed + k) :: indices) suf
          = suf.take k ++ keptFrom (pre.length + removed + k + 1) indices (suf.drop (k + 1)) := by
        have hsuf : suf = suf.take k ++ ([suf[k]] ++ suf.drop (k + 1)) := by
          rw [List.singleton_append, List.getElem_cons_drop, List.take_append_drop]
        have htake : (suf.take k).length = k := by
          rw [List.length_take, Nat.min_eq_left hk.le]
        conv_lhs => rw [hsuf]
        rw [keptFrom_append, keptFrom_append, htake, keptFrom_eq_self, List.length_singleton,
          keptFrom_cons (Nat.lt_succ_self _)]
        · have hnone : keptFrom (pre.length + removed + k) ((pre.length + removed + k) :: indices)
              [suf[k]] = [] := by simp [keptFrom]
          rw [hnone, List.nil_append]
        · intro j hj
          rcases List.mem_cons.mp hj with rfl | hj
          · omega
          · have hj' := hlt j hj
            omega
      rw [hstep, ih hrest fun j hj => ?_]
      · rw [hlength, hkept, List.append_assoc]
      · have hj' := hlt j hj
        have hj'' := (hin j (List.mem_cons_of_mem _ hj)).2
        rw [hlength, List.length_drop]
        omega

theorem removeIndices_eq {indices : List ℕ} {l : List α} (hsorted : indices.Pairwise (· < ·))
    (hin : ∀ i ∈ indices, i < l.length) :
    removeIndices indices 0 l = .ok (keepAt indices l) := by
  refine @removeIndices_append _ indices hsorted 0 [] l fun i hi => ?_
  have hlt := hin i hi
  simp only [List.length_nil]
  omega

/-- The last of sorted indices is the greatest. -/
theorem forall_lt_iff_getLastD_lt {indices : List ℕ} {n : ℕ} (hne : indices ≠ [])
    (hsorted : indices.Pairwise (· < ·)) :
    (∀ i ∈ indices, i < n) ↔ indices.getLastD 0 < n := by
  rcases List.eq_nil_or_concat' indices with rfl | ⟨init, last, rfl⟩
  · exact absurd rfl hne
  · have hbefore := (List.pairwise_append.mp hsorted).2.2
    rw [List.getLastD_concat]
    constructor
    · exact fun h => h last (List.mem_append_right _ List.mem_cons_self)
    · intro hlast i hi
      rcases List.mem_append.mp hi with hi | hi
      · exact (hbefore i hi last List.mem_cons_self).trans hlast
      · rwa [List.mem_singleton.mp hi]

end Cancel

omit [DecidableEq A] in
/-- **Cancelling removes the slashes at the given indices and nothing else, or is refused for the
first of four reasons; it never panics.** -/
theorem cancelDeferredSlash_outcome (authorized : Bool) (era : ℕ) (indices : List ℕ)
    (s : OffenceState A) :
    cancelDeferredSlash authorized era indices s =
      if authorized = false then fail .badOrigin
      else if indices = [] then fail .emptyTargets
      else if ¬ indices.Pairwise (· < ·) then fail .notSortedAndUnique
      else if ¬ ∀ i ∈ indices, i < (s.unappliedSlashes era).length then fail .invalidSlashIndex
      else .ok { s with
        unappliedSlashes := Function.update s.unappliedSlashes era
          (keepAt indices (s.unappliedSlashes era))
        cancelled := s.cancelled
          ++ (takeAt indices (s.unappliedSlashes era)).map fun slash => (era, slash) } := by
  unfold cancelDeferredSlash
  simp only [ensure_bind, isSortedAndUnique_iff]
  cases authorized with
  | false => rfl
  | true =>
      rw [if_pos rfl, if_neg (show ¬ true = false by decide)]
      by_cases hne : indices = []
      · rw [if_neg (not_not.mpr hne), if_pos hne]
      rw [if_pos hne, if_neg hne]
      by_cases hsorted : indices.Pairwise (· < ·)
      · rw [if_pos hsorted, if_neg (not_not.mpr hsorted)]
        by_cases hin : ∀ i ∈ indices, i < (s.unappliedSlashes era).length
        · rw [if_pos ((forall_lt_iff_getLastD_lt hne hsorted).mp hin), if_neg (not_not.mpr hin),
            removeIndices_eq hsorted hin]
          rfl
        · rw [if_neg fun h => hin ((forall_lt_iff_getLastD_lt hne hsorted).mpr h), if_pos hin]
      · rw [if_neg hsorted, if_pos hsorted]

/-! ## The queue -/

omit [DecidableEq A] in
/-- The deferred slashes as a queue. -/
def OffenceState.queue (s : OffenceState A) : Queue (PendingSlash A) where
  now := s.staking.activeEra.map ActiveEraInfo.index
  earliest := s.earliestUnappliedSlash
  pending := s.unappliedSlashes
  queued := s.reported
  released := s.applied
  cancelled := s.cancelled

omit [DecidableEq A] in
theorem queue_onStaking {s : OffenceState A} {f : State A → State A}
    (h : (f s.staking).activeEra.map ActiveEraInfo.index
      = s.staking.activeEra.map ActiveEraInfo.index) : (s.onStaking f).queue = s.queue := by
  unfold OffenceState.queue
  exact congrArg (fun now => (⟨now, _, _, _, _, _⟩ : Queue (PendingSlash A))) h

omit [DecidableEq A] in
theorem activeEra_of_eras {s t : State A} (h : t.eras = s.eras) : t.activeEra = s.activeEra :=
  congrArg EraRecords.activeEra h

/-! ### Eras -/

variable (cfg) in
theorem applyOf_queue (era now : ℕ) (s : OffenceState A) (slash : PendingSlash A) :
    (applyOf cfg era now s slash).queue
      = { s.queue with released := s.queue.released ++ [(era, now, slash)] } := by
  have hactive := activeEra_of_eras (eras_of_funds (applySlash_funds cfg slash s.staking))
  unfold OffenceState.queue applyOf
  exact congrArg (fun now' : Option ActiveEraInfo => (⟨now'.map ActiveEraInfo.index, _, _, _, _, _⟩ :
    Queue (PendingSlash A))) hactive

variable (cfg) in
theorem foldl_applyOf_queue (era now : ℕ) (slashes : List (PendingSlash A)) (s : OffenceState A) :
    (slashes.foldl (applyOf cfg era now) s).queue = { s.queue with
      released := s.queue.released ++ slashes.map fun slash => (era, now, slash) } := by
  induction slashes generalizing s with
  | nil => simp
  | cons slash slashes ih =>
      rw [List.foldl_cons, ih, applyOf_queue]
      simp

variable (cfg) in
theorem applyEra_queue (now : ℕ) (s : OffenceState A) (era : ℕ) :
    (applyEra cfg now s era).queue = Queue.release now s.queue era := by
  unfold applyEra
  rw [foldl_applyOf_queue]
  rfl

variable (cfg) in
theorem foldl_applyEra_queue (now : ℕ) (eras : List ℕ) (s : OffenceState A) :
    (eras.foldl (applyEra cfg now) s).queue = eras.foldl (Queue.release now) s.queue := by
  induction eras generalizing s with
  | nil => rfl
  | cons era eras ih => rw [List.foldl_cons, List.foldl_cons, ih, applyEra_queue]

/-- Releasing does not look at the period that is current. -/
theorem foldl_release_now {α : Type} (now : ℕ) (current : Option ℕ) (periods : List ℕ)
    (q : Queue α) : periods.foldl (Queue.release now) { q with now := current }
      = { periods.foldl (Queue.release now) q with now := current } := by
  induction periods generalizing q with
  | nil => rfl
  | cons period periods ih => exact ih (Queue.release now q period)

variable (cfg) in
/-- **The start of an era advances the queue.** -/
theorem startEraOf_queue (j : ℕ) (s : OffenceState A) :
    (startEraOf cfg j s).queue = s.queue.advance cfg.slashDeferDuration := by
  have hnext : Queue.next s.queue.now = s.staking.nextActiveEra := by
    unfold OffenceState.queue State.nextActiveEra
    cases s.staking.activeEra <;> rfl
  have hbond : (bondEra cfg s.staking.nextActiveEra j (s.onStaking startEra)).queue
      = { s.queue with now := some s.staking.nextActiveEra } := by
    have hstaking := bondEra_staking cfg s.staking.nextActiveEra j (s.onStaking startEra)
    have hrest : (bondEra cfg s.staking.nextActiveEra j (s.onStaking startEra)).queue
        = { s.queue with
            now := (bondEra cfg s.staking.nextActiveEra j
              (s.onStaking startEra)).staking.activeEra.map ActiveEraInfo.index } := by
      unfold bondEra
      dsimp only
      split <;> rfl
    rw [hrest, hstaking]
    rfl
  unfold startEraOf
  dsimp only
  generalize bondEra cfg s.staking.nextActiveEra j (s.onStaking startEra) = t at hbond ⊢
  have hearliest : t.earliestUnappliedSlash = s.queue.earliest :=
    congrArg Queue.earliest hbond
  unfold applyUnappliedSlashes
  rw [hearliest]
  cases hsome : s.queue.earliest with
  | none => rw [Queue.advance_none hsome, hnext]; exact hbond
  | some earliest =>
      rw [Queue.advance_some hsome, hnext]
      have hfold := foldl_applyEra_queue cfg s.staking.nextActiveEra
        (List.range' earliest (s.staking.nextActiveEra - cfg.slashDeferDuration - earliest)) t
      rw [hbond, foldl_release_now] at hfold
      exact congrArg (fun q : Queue (PendingSlash A) => { q with
        earliest := some (max earliest (s.staking.nextActiveEra - cfg.slashDeferDuration)) }) hfold

/-! ### Sessions -/

/-- What happens to the queue. -/
abbrev QueueStep (cfg : OffenceConfig A) (s t : OffenceState A) : Prop :=
  Reaches (Queue.apply cfg.slashDeferDuration) (fun _ => True) s.queue t.queue

variable (cfg) in
theorem startSessionOf_queue (j : ℕ) (s : OffenceState A) :
    QueueStep cfg s (startSessionOf cfg j s) := by
  rcases startSessionOf_cases cfg j s with ⟨hof, -⟩ | ⟨hof, -⟩
  · rw [QueueStep, hof, startEraOf_queue]
    exact .single (l := Op.advance) trivial s.queue
  · rw [hof]
    exact .refl _

variable (cfg) in
theorem genesisSessionsOf_queue (first second : Election A) (s : OffenceState A) :
    QueueStep cfg s (genesisSessionsOf cfg first second s) := by
  unfold genesisSessionsOf
  split
  · exact .refl _
  · refine .trans (.of_eq (queue_onStaking ?_)) (startSessionOf_queue cfg 0 _)
    rw [(newSession_frame cfg.toConfig 1 second _).1, (newSession_frame cfg.toConfig 0 first _).1]

variable (cfg) in
theorem rotateSessionOf_queue (now : ℕ) (election : Election A) (s : OffenceState A) :
    QueueStep cfg s (rotateSessionOf cfg now election s) := by
  unfold rotateSessionOf
  split
  · exact .refl _
  · rename_i i _
    refine .trans (.trans (.of_eq (queue_onStaking ?_)) (startSessionOf_queue cfg (i + 1) _))
      (.of_eq (queue_onStaking ?_))
    · rw [(endSession_ended cfg.toConfig i now s.staking).activeEra]
    · rw [(newSession_frame cfg.toConfig (i + 2) election _).1]

/-! ### Reports, cancellations and calls -/

variable (cfg) in
/-- An offender whose slash is settled pushes it. -/
theorem offend_queue (slashEra : ℕ) {n e : ℕ} {s : OffenceState A} (x : OffenceDetails A × Perbill)
    (hnow : s.queue.now = some n) (hearliest : s.queue.earliest = some e) :
    (offend cfg slashEra n s x).queue = s.queue ∨
      ∃ slash, (offend cfg slashEra n s x).queue = s.queue.push cfg.slashDeferDuration slash := by
  have hsettle : ∀ (slash : PendingSlash A) (t : OffenceState A), t.queue = s.queue →
      (settleSlash cfg n slash t).queue = s.queue.push cfg.slashDeferDuration slash := by
    intro slash t ht
    have hsame : some (s.queue.earliest.getD n) = s.queue.earliest := by rw [hearliest]; rfl
    have hreported : ({ t with reported := t.reported ++ [(n, slash)] } : OffenceState A).queue
        = { s.queue with queued := s.queue.queued ++ [(n, slash)] } := by rw [← ht]; rfl
    unfold settleSlash
    dsimp only
    by_cases hdelay : cfg.slashDeferDuration = 0
    · rw [if_pos hdelay, hdelay, Queue.push_zero hnow, applyOf_queue, hreported, hsame]
    · rw [if_neg hdelay, Queue.push_pos hnow hdelay, hsame, ← ht]
      rfl
  have hcompute : ∀ (params : SlashParams A) (disabled : Bool),
      ({ s with slashing := (computeSlash params disabled s.slashing).2 } : OffenceState A).queue
        = s.queue := by
    intro params disabled
    obtain ⟨acts, hacts, hrun⟩ := computeSlash_staking cfg.toConfig params disabled s.slashing
    have hreaches : Reaches (step cfg.toConfig) (fun act => act.IsOffence ∨ act.MovesFunds)
        s.slashing.staking (computeSlash params disabled s.slashing).2.staking := by
      refine ⟨acts, fun act hact => ?_, hrun⟩
      obtain ⟨stash, spans, chills, forces, rfl⟩ := hacts act hact
      exact .inl trivial
    have hactive := activeEra_of_eras (eras_of_reaches hreaches)
    exact queue_onStaking (s := s)
      (f := fun _ => (computeSlash params disabled s.slashing).2.staking)
      (congrArg (Option.map ActiveEraInfo.index) hactive)
  unfold offend
  dsimp only
  split
  · exact .inl rfl
  · have h := hcompute ⟨x.1.stash, x.2, x.1.exposure, slashEra, n - cfg.bondingDuration, n,
      s.slashRewardFraction⟩ x.1.disabled
    generalize computeSlash _ x.1.disabled s.slashing = r at h ⊢
    obtain ⟨unapplied, slashing⟩ := r
    cases unapplied with
    | none => exact .inl h
    | some unapplied => exact .inr ⟨_, hsettle ⟨unapplied, x.1.reporters⟩ _ h⟩

theorem foldl_offend_queue {slashEra n e : ℕ} (offenders : List (OffenceDetails A × Perbill))
    {s : OffenceState A} (hnow : s.queue.now = some n) (hearliest : s.queue.earliest = some e) :
    QueueStep cfg s (offenders.foldl (offend cfg slashEra n) s) := by
  induction offenders generalizing s with
  | nil => exact .refl _
  | cons x offenders ih =>
      rcases offend_queue cfg slashEra x hnow hearliest with hsame | ⟨slash, hpush⟩
      · exact (Reaches.of_eq hsame).trans (ih (hsame ▸ hnow) (hsame ▸ hearliest))
      · have hkept : (s.queue.push cfg.slashDeferDuration slash).now = some n ∧
            (s.queue.push cfg.slashDeferDuration slash).earliest = some e := by
          by_cases hdelay : cfg.slashDeferDuration = 0
          · rw [hdelay, Queue.push_zero hnow]
            exact ⟨hnow, by rw [hearliest]; rfl⟩
          · rw [Queue.push_pos hnow hdelay]
            exact ⟨hnow, by rw [hearliest]; rfl⟩
        refine Reaches.trans ?_ (ih (hpush ▸ hkept.1) (hpush ▸ hkept.2))
        rw [hpush]
        exact .single (l := Op.push slash) trivial s.queue

variable (cfg) in
theorem onOffence_queue (offenders : List (OffenceDetails A)) (slashFraction : List Perbill)
    (slashSession : ℕ) (s : OffenceState A) :
    QueueStep cfg s (onOffence cfg offenders slashFraction slashSession s) := by
  unfold onOffence
  cases hactive : s.staking.activeEra with
  | none => exact .refl _
  | some activeEra =>
      dsimp only
      cases slashEra s activeEra.index slashSession with
      | none => exact .refl _
      | some e =>
          have hnow : s.queue.now = some activeEra.index := by
            unfold OffenceState.queue
            rw [hactive]
            rfl
          have hnote : ({ s with
              earliestUnappliedSlash :=
                some (s.earliestUnappliedSlash.getD activeEra.index) } : OffenceState A).queue
              = s.queue.note := (Queue.note_eq_some hnow).symm
          refine Reaches.trans ?_ (foldl_offend_queue _ hnow rfl)
          rw [hnote]
          exact .single (l := Op.note) trivial s.queue

omit [DecidableEq A] in
theorem cancelDeferredSlash_queue {authorized : Bool} {era : ℕ} {indices : List ℕ}
    {s s' : OffenceState A} (h : cancelDeferredSlash authorized era indices s = .ok s') :
    s'.queue = s.queue.cancel era indices := by
  unfold cancelDeferredSlash at h
  obtain ⟨-, -, h⟩ := of_bind_eq_ok h
  obtain ⟨u, hne, h⟩ := of_bind_eq_ok h
  obtain ⟨u', hunique, h⟩ := of_bind_eq_ok h
  obtain ⟨u'', hlast, h⟩ := of_bind_eq_ok h
  obtain ⟨kept, hkept, h⟩ := of_bind_eq_ok h
  have hsorted := isSortedAndUnique_iff.mp (of_ensure_eq_ok hunique)
  have hin := (forall_lt_iff_getLastD_lt (of_ensure_eq_ok hne) hsorted).mpr
    (of_ensure_eq_ok hlast)
  rw [removeIndices_eq hsorted hin] at hkept
  cases hkept
  cases h
  rfl

variable (cfg) in
theorem callOf_queue (origin : Origin A) (c : Call A) (s : OffenceState A) :
    (callOf cfg origin c s).queue = s.queue := by
  refine queue_onStaking (s := s) (f := fun t => (dispatch cfg.toConfig origin c).commit t) ?_
  rcases dispatch_cases cfg.toConfig origin c s.staking with hsame | heffect
  · rw [hsame]
  · rcases heffect.eras_eq with heras | ⟨currentEra, depth, -, hcleared⟩
    · rw [activeEra_of_eras heras]
    · rw [hcleared]
      exact congrArg _ (clearEras_spec _ s.staking).2.1

/-! ## Runs -/

variable (cfg) in
/-- **A step of the chain is a run of the queue.** -/
theorem offenceStep_queue (s : OffenceState A) (act : OffenceAct A) :
    QueueStep cfg s (offenceStep cfg s act) := by
  cases act with
  | call origin c => exact .of_eq (callOf_queue cfg origin c s)
  | genesisSessions first second => exact genesisSessionsOf_queue cfg first second s
  | rotateSession now election => exact rotateSessionOf_queue cfg now election s
  | onFinalize now =>
      refine .of_eq (queue_onStaking ?_)
      unfold onFinalize
      split
      · rename_i index hactive
        rw [hactive]
        rfl
      · rfl
  | rewardByIds points =>
      refine .of_eq (queue_onStaking ?_)
      unfold rewardByIds
      split <;> rfl
  | offence offenders slashFraction slashSession =>
      exact onOffence_queue cfg offenders slashFraction slashSession s
  | cancelDeferredSlash authorized era slashIndices =>
      unfold offenceStep
      dsimp only
      split
      · rename_i s' hok
        rw [QueueStep, cancelDeferredSlash_queue hok]
        exact .single (l := Op.cancel era slashIndices) trivial s.queue
      · exact .refl _
  | setInvulnerables invulnerables => exact .refl _
  | outside native setter system => exact .of_eq (queue_onStaking rfl)

omit [DecidableEq A] in
theorem OffenceGenesis.queue {s : OffenceState A} (h : OffenceGenesis s) :
    s.queue = Queue.empty := by
  have hpending : s.unappliedSlashes = fun _ => [] := funext h.unappliedSlashes
  unfold OffenceState.queue
  rw [h.staking.activeEra, h.earliestUnappliedSlash, hpending, h.reported, h.applied, h.cancelled]
  rfl

variable (cfg) in
/-- **In every run, each slash of a report is applied in the era in which it is due, or was
cancelled, or still waits for that era, and none of them twice.** -/
theorem slashes_settled {s : OffenceState A} (h : OffenceGenesis s) (acts : List (OffenceAct A)) :
    (run (offenceStep cfg) s acts).queue.Settled cfg.slashDeferDuration := by
  obtain ⟨ops, -, hrun⟩ := Reaches.run_map OffenceState.queue (offenceStep_queue cfg) s acts
  rw [← hrun, h.queue]
  exact Queue.settled_of_run cfg.slashDeferDuration ops

/-- The reported slash is applied two eras later. -/
theorem slashes_settled_sample :
    let last := run (offenceStep sampleOffenceConfig) sampleOffenceGenesis
      (sampleFirstSession ++ sampleSessions)
    last.applied.map (fun x => (x.1, x.2.1, x.2.2.own)) = [(0, 2, 500)] ∧ last.queue.Settled 1 :=
  ⟨by decide, slashes_settled sampleOffenceConfig sampleOffenceGenesis_genesis _⟩

end Setheum.Staking
