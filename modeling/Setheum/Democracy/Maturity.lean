import Setheum.Democracy.Effects

/-!
# Which maturing referenda are finished

A referendum whose end has come is looked at in that block and never again. The loop over the
maturing referenda ends at the first one whose preimage is not available, so that one and all
after it stay ongoing for good.

* `Kept` — nothing but a new referendum is ever ongoing that was not, or ends at another block.
* `finishes_of_available`, `available_of_finishes` — the loop finishes the maturing referenda
  exactly if each one finds its preimage when its turn comes.
* `beginBlock_finishes` — in every state that the chain can reach.
-/

set_option autoImplicit false

namespace Setheum.Democracy

open StorageMap

variable {A H : Type} [DecidableEq A] [DecidableEq H]

/-! ## Ongoing referenda -/

/-- Referendum `i` is ongoing and ends at block `n`. -/
def State.EndsAt (s : State A H) (i n : ℕ) : Prop :=
  ∃ status, s.referendumInfoOf.lookup i = some (.ongoing status) ∧ status.endBlock = n

/-- What is ongoing was ongoing and ends when it did, except for new referenda. -/
structure Kept (s s' : State A H) : Prop where
  lowest : s'.lowestUnbaked = s.lowestUnbaked
  count : s.referendumCount ≤ s'.referendumCount
  ends : ∀ i n, s'.EndsAt i n →
    s.EndsAt i n ∨ (s.referendumCount ≤ i ∧ i < s'.referendumCount)

section Kept

variable {cfg : Config A H} {rt : Runtime A H} {s s' s₁ s₂ : State A H}

omit [DecidableEq A] [DecidableEq H]

theorem Kept.refl (s : State A H) : Kept s s := ⟨rfl, le_rfl, fun _ _ h => .inl h⟩

theorem Kept.trans (h : Kept s s₁) (h' : Kept s₁ s₂) : Kept s s₂ where
  lowest := h'.lowest.trans h.lowest
  count := h.count.trans h'.count
  ends i n hi := by
    have hcount := h.count
    have hcount' := h'.count
    rcases h'.ends i n hi with hi | ⟨hlow, hhigh⟩
    · rcases h.ends i n hi with hi | ⟨hlow, hhigh⟩
      · exact .inl hi
      · exact .inr ⟨hlow, by omega⟩
    · exact .inr ⟨by omega, hhigh⟩

/-- A change of the referenda that starts none. -/
theorem Kept.of_ends (hlowest : s'.lowestUnbaked = s.lowestUnbaked)
    (hcount : s'.referendumCount = s.referendumCount)
    (hends : ∀ i n, s'.EndsAt i n → s.EndsAt i n) : Kept s s' :=
  ⟨hlowest, hcount.ge, fun i n h => .inl (hends i n h)⟩

theorem Untouched.kept (h : Untouched s s') : Kept s s' := by
  refine Kept.of_ends h.lowestUnbaked h.referendumCount fun i n hi => ?_
  unfold State.EndsAt at hi
  rwa [h.referendumInfoOf] at hi

theorem kept_injectReferendum (s : State A H) (endBlock : ℕ) (h : H) (threshold : VoteThreshold)
    (delay : ℕ) : Kept s (s.injectReferendum endBlock h threshold delay) where
  lowest := rfl
  count := Nat.le_succ _
  ends i n hi := by
    obtain ⟨status, hstatus, hend⟩ := hi
    by_cases hne : i = s.referendumCount
    · exact .inr ⟨hne.ge, hne ▸ Nat.lt_succ_self i⟩
    · rw [State.injectReferendum, AList.lookup_insert_ne hne] at hstatus
      exact .inl ⟨status, hstatus, hend⟩

theorem kept_internalCancelReferendum (s : State A H) (refIndex : ℕ) :
    Kept s (s.internalCancelReferendum refIndex) := by
  refine Kept.of_ends rfl rfl fun i n hi => ?_
  obtain ⟨status, hstatus, hend⟩ := hi
  by_cases hne : i = refIndex
  · subst hne
    rw [State.internalCancelReferendum, AList.lookup_erase] at hstatus
    cases hstatus
  · rw [State.internalCancelReferendum, AList.lookup_erase_ne hne] at hstatus
    exact ⟨status, hstatus, hend⟩

/-- A referendum that is finished is not ongoing. -/
theorem not_endsAt_finish (s : State A H) (refIndex : ℕ) (approved : Bool) (now n : ℕ) :
    ¬ (s.finish refIndex approved now).EndsAt refIndex n := by
  rintro ⟨status, hstatus, -⟩
  rw [State.finish, AList.lookup_insert] at hstatus
  cases hstatus

theorem kept_finish (s : State A H) (refIndex : ℕ) (approved : Bool) (now : ℕ) :
    Kept s (s.finish refIndex approved now) := by
  refine Kept.of_ends rfl rfl fun i n hi => ?_
  by_cases hne : i = refIndex
  · subst hne
    exact absurd hi (not_endsAt_finish s i approved now n)
  · obtain ⟨status, hstatus, hend⟩ := hi
    rw [State.finish, AList.lookup_insert_ne hne] at hstatus
    exact ⟨status, hstatus, hend⟩

/-- The tally of an ongoing referendum does not say when it ends. -/
theorem kept_setTally {refIndex : ℕ} {status : ReferendumStatus H} (tally : Tally)
    (hstatus : s.referendumInfoOf.lookup refIndex = some (.ongoing status)) :
    Kept s (s.setTally refIndex status tally) := by
  refine Kept.of_ends rfl rfl fun i n hi => ?_
  obtain ⟨status', hstatus', hend⟩ := hi
  by_cases hne : i = refIndex
  · subst hne
    rw [State.setTally, AList.lookup_insert] at hstatus'
    cases hstatus'
    exact ⟨status, hstatus, hend⟩
  · rw [State.setTally, AList.lookup_insert_ne hne] at hstatus'
    exact ⟨status', hstatus', hend⟩

theorem kept_modifyTallies (f : Bool → Tally → Tally) (votes : Map ℕ AccountVote)
    (hlowest : s'.lowestUnbaked = s.lowestUnbaked)
    (hcount : s'.referendumCount = s.referendumCount)
    (hinfo : s'.referendumInfoOf = modifyTallies f votes s.referendumInfoOf) : Kept s s' := by
  refine Kept.of_ends hlowest hcount fun i n hi => ?_
  obtain ⟨status', hstatus', hend⟩ := hi
  rw [hinfo, lookup_modifyTallies, Option.map_eq_some_iff] at hstatus'
  obtain ⟨info, hlookup, hmap⟩ := hstatus'
  cases info with
  | ongoing status =>
      cases hmap
      exact ⟨status, hlookup, hend⟩
  | finished approved endBlock => cases hmap

/-- Votes and locks are no referenda. -/
theorem kept_of_eq (hlowest : s'.lowestUnbaked = s.lowestUnbaked)
    (hcount : s'.referendumCount = s.referendumCount)
    (hinfo : s'.referendumInfoOf = s.referendumInfoOf) : Kept s s' := by
  refine Kept.of_ends hlowest hcount fun i n hi => ?_
  unfold State.EndsAt at hi
  rwa [hinfo] at hi

end Kept

variable {cfg : Config A H} {rt : Runtime A H} {s s' : State A H}

omit [DecidableEq H] in
theorem kept_increaseUpstreamDelegation (s : State A H) (who : A) (amount : Delegations) :
    Kept s (s.increaseUpstreamDelegation who amount) := by
  unfold State.increaseUpstreamDelegation
  split
  · exact kept_of_eq rfl rfl rfl
  · exact kept_modifyTallies _ _ rfl rfl rfl

omit [DecidableEq H] in
theorem kept_reduceUpstreamDelegation (s : State A H) (who : A) (amount : Delegations) :
    Kept s (s.reduceUpstreamDelegation who amount) := by
  unfold State.reduceUpstreamDelegation
  split
  · exact kept_of_eq rfl rfl rfl
  · exact kept_modifyTallies _ _ rfl rfl rfl

omit [DecidableEq H] in
theorem kept_startDelegation (s : State A H) (who target : A) (conviction : Conviction)
    (balance : ℕ) (delegations : Delegations) (prior : PriorLock) :
    Kept s (s.startDelegation who target conviction balance delegations prior) :=
  (kept_increaseUpstreamDelegation s target _).trans (kept_of_eq rfl rfl rfl)

omit [DecidableEq H] in
theorem VotingEffect.kept (h : VotingEffect s s') : Kept s s' := by
  cases h with
  | voted who refIndex vote status votes delegations prior tally hstatus =>
      refine Kept.trans ?_ (kept_setTally _ ?_)
      · exact kept_of_eq rfl rfl rfl
      · exact hstatus
  | unvoted who refIndex old status votes delegations prior tally hstatus =>
      refine Kept.trans ?_ (kept_setTally _ ?_)
      · exact kept_of_eq rfl rfl rfl
      · exact hstatus
  | settled => exact kept_of_eq rfl rfl rfl
  | unlocked => exact kept_of_eq rfl rfl rfl

omit [DecidableEq H] in
theorem DelegationEffect.kept {who : A} (h : DelegationEffect cfg who s s') : Kept s s' := by
  cases h with
  | delegated target conviction balance votes delegations prior =>
      exact kept_startDelegation s who target conviction balance delegations prior
  | redelegated target conviction balance oldBalance oldTarget oldConviction delegations prior =>
      exact (kept_reduceUpstreamDelegation s oldTarget _).trans
        (kept_startDelegation _ who target conviction balance delegations prior)
  | undelegated target balance conviction delegations prior =>
      exact (kept_reduceUpstreamDelegation s target _).trans (kept_of_eq rfl rfl rfl)

theorem Effect.kept {delegators : A → Prop} (h : Effect cfg delegators s s') : Kept s s' := by
  cases h with
  | deposit h => exact h.frame.kept
  | referendum h =>
      cases h with
      | injected endBlock h threshold delay =>
          exact kept_injectReferendum s endBlock h threshold delay
      | cancelled refIndex => exact kept_internalCancelReferendum s refIndex
      | finished refIndex approved now => exact kept_finish s refIndex approved now
  | voting h => exact h.kept
  | delegation who hwho h => exact h.kept

theorem Happens.kept (h : Happens cfg s s') : Kept s s' :=
  h.invariant (fun s₁ _ hs₁ => act_invariant (fun _ _ he hk => hk.trans he.kept) s₁ hs₁)
    (Kept.refl s)

/-- Every ongoing referendum is among those that are looked at. -/
structure Indexed (s : State A H) : Prop where
  lowest : s.lowestUnbaked = 0
  index : ∀ i n, s.EndsAt i n → i < s.referendumCount

omit [DecidableEq A] [DecidableEq H] in
theorem Indexed.of_kept (h : Indexed s) (hk : Kept s s') : Indexed s' where
  lowest := hk.lowest.trans h.lowest
  index i n hi := by
    have hcount := hk.count
    rcases hk.ends i n hi with hi | ⟨-, hi⟩
    · have hindex := h.index i n hi
      omega
    · exact hi

omit [DecidableEq A] [DecidableEq H] in
theorem Genesis.indexed (h : Genesis s) : Indexed s where
  lowest := h.lowestUnbaked
  index i n hi := by
    obtain ⟨status, hstatus, -⟩ := hi
    rw [h.referendumInfoOf, AList.lookup_empty] at hstatus
    cases hstatus

theorem indexed_of_run (cfg : Config A H) (rt : Runtime A H) (hs : Genesis s)
    (steps : List (Step A H)) :
    Indexed (Machine.run (step cfg rt) s steps) :=
  Machine.run_invariant_always
    (fun _ l hs => step_invariant (fun _ a hs => hs.of_kept (happens_act cfg _ a).kept)
      (fun _ hs => ⟨hs.lowest, hs.index⟩) l hs)
    hs.indexed steps

/-! ## The loop over the maturing referenda -/

/-- The referenda that are baked at the start of a block. -/
def State.maturing (cfg : Config A H) (s : State A H) (n : ℕ) : List (ℕ × ReferendumStatus H) :=
  (s.launched cfg n).maturingReferendaAtInner n (s.launched cfg n).lowestUnbaked
    (s.launched cfg n).referendumCount

/-- The state that baking these referenda leaves behind. -/
def State.baked (cfg : Config A H) (rt : Runtime A H) (n : ℕ) (s : State A H)
    (maturing : List (ℕ × ReferendumStatus H)) : State A H :=
  Dispatch.commit (bakeReferenda cfg rt n maturing) s

/-- The loop goes on past a referendum with its preimage, and ends at one without. -/
theorem baked_cons (n : ℕ) (s : State A H) (r : ℕ × ReferendumStatus H)
    (rest : List (ℕ × ReferendumStatus H)) :
    s.baked cfg rt n (r :: rest) =
      if (s.availablePreimage r.2.proposalHash).isSome then
        (s.baked cfg rt n [r]).baked cfg rt n rest
      else s := by
  obtain ⟨index, status⟩ := r
  unfold State.baked
  cases hbake : (bakeReferendum cfg rt n status).run s with
  | ok approved s₁ =>
      obtain ⟨preimage, hpreimage, -, -⟩ := bakeReferendum_ok hbake
      have hcons : ∀ l, Dispatch.commit (bakeReferenda cfg rt n ((index, status) :: l)) s =
          Dispatch.commit (bakeReferenda cfg rt n l) (s₁.finish index approved n) :=
        fun l => Dispatch.commit_bind_of_ok hbake
      rw [if_pos (by simp [hpreimage]), hcons, hcons]
      rfl
  | error e s₁ =>
      obtain ⟨hnone, rfl⟩ := bakeReferendum_error hbake
      have hmissing : ¬ (s₁.availablePreimage status.proposalHash).isSome = true := by
        simp [hnone]
      rw [if_neg hmissing]
      exact Dispatch.commit_bind_of_error hbake

/-- A referendum that finds its preimage is finished. -/
theorem not_endsAt_baked (n : ℕ) (s : State A H) (r : ℕ × ReferendumStatus H)
    (h : (s.availablePreimage r.2.proposalHash).isSome) (m : ℕ) :
    ¬ (s.baked cfg rt n [r]).EndsAt r.1 m := by
  obtain ⟨index, status⟩ := r
  unfold State.baked
  cases hbake : (bakeReferendum cfg rt n status).run s with
  | ok approved s₁ =>
      have hbaked : Dispatch.commit (bakeReferenda cfg rt n [(index, status)]) s =
          s₁.finish index approved n := Dispatch.commit_bind_of_ok hbake
      rw [hbaked]
      exact not_endsAt_finish s₁ index approved n m
  | error e s₁ =>
      rw [(bakeReferendum_error hbake).1] at h
      cases h

theorem kept_baked (n : ℕ) (s : State A H) (l : List (ℕ × ReferendumStatus H)) :
    Kept s (s.baked cfg rt n l) :=
  (happens_bakeReferenda rt n l s).kept

/-- Each of the referenda finds its preimage when its turn comes, or it is over by then and so are
those after it. -/
def Available (cfg : Config A H) (rt : Runtime A H) (n : ℕ) :
    State A H → List (ℕ × ReferendumStatus H) → Prop
  | _, [] => True
  | s, r :: rest =>
      if (s.availablePreimage r.2.proposalHash).isSome then
        Available cfg rt n (s.baked cfg rt n [r]) rest
      else ∀ r' ∈ r :: rest, ¬ s.EndsAt r'.1 n

/-- No proposal that is enacted on the way starts a referendum that ends at `n`. -/
def StartsNone (cfg : Config A H) (rt : Runtime A H) (n : ℕ) :
    State A H → List (ℕ × ReferendumStatus H) → Prop
  | _, [] => True
  | s, r :: rest =>
      (∀ i, s.referendumCount ≤ i → ¬ (s.baked cfg rt n [r]).EndsAt i n) ∧
        StartsNone cfg rt n (s.baked cfg rt n [r]) rest

/-- **The loop finishes what finds its preimage.** -/
theorem finishes_of_available {n : ℕ} {l : List (ℕ × ReferendumStatus H)} {s : State A H}
    (havailable : Available cfg rt n s l) (hstarts : StartsNone cfg rt n s l)
    (hlisted : ∀ i, s.EndsAt i n → i ∈ l.map Prod.fst) (i : ℕ) :
    ¬ (s.baked cfg rt n l).EndsAt i n := by
  induction l generalizing s with
  | nil => exact fun hi => absurd (hlisted i hi) List.not_mem_nil
  | cons r rest ih =>
      rw [baked_cons]
      unfold Available at havailable
      split
      · rename_i hsome
        rw [if_pos hsome] at havailable
        refine ih havailable hstarts.2 fun j hj => ?_
        rcases (kept_baked n s [r]).ends j n hj with hold | ⟨hnew, -⟩
        · rcases List.mem_cons.mp (hlisted j hold) with rfl | hrest
          · exact absurd hj (not_endsAt_baked n s r hsome n)
          · exact hrest
        · exact absurd hj (hstarts.1 j hnew)
      · rename_i hnone
        rw [if_neg hnone] at havailable
        intro hi
        obtain ⟨r', hr', rfl⟩ := List.mem_map.mp (hlisted i hi)
        exact havailable r' hr' hi

/-- **The loop finishes nothing else.** -/
theorem available_of_finishes {n : ℕ} {l : List (ℕ × ReferendumStatus H)} {s : State A H}
    (h : ∀ r ∈ l, ¬ (s.baked cfg rt n l).EndsAt r.1 n) : Available cfg rt n s l := by
  induction l generalizing s with
  | nil => trivial
  | cons r rest ih =>
      rw [baked_cons] at h
      unfold Available
      split at h
      · rename_i hsome
        rw [if_pos hsome]
        exact ih fun r' hr' => h r' (List.mem_cons_of_mem r hr')
      · rename_i hnone
        rw [if_neg hnone]
        exact h

omit [DecidableEq A] in
theorem availablePreimage_need (s : State A H) (h h' : H) (block : ℕ) :
    ((s.need h block).availablePreimage h').isSome = (s.availablePreimage h').isSome := by
  unfold State.availablePreimage State.need
  by_cases hne : h' = h
  · subst hne
    rw [AList.lookup_insert]
    cases s.preimages.lookup h' with
    | none => rfl
    | some status => cases status <;> rfl
  · rw [AList.lookup_insert_ne hne]

/-- What baking a referendum that is not enacted at once leaves behind. -/
theorem baked_of_delay (cfg : Config A H) (rt : Runtime A H) {n : ℕ} (s : State A H)
    {r : ℕ × ReferendumStatus H} (hdelay : r.2.delay ≠ 0) :
    s.baked cfg rt n [r] = s ∨ ∃ approved s₁,
      (s₁ = s ∨ s₁ = s.need r.2.proposalHash (n + r.2.delay)) ∧
        s.baked cfg rt n [r] = s₁.finish r.1 approved n := by
  obtain ⟨index, status⟩ := r
  unfold State.baked
  cases hbake : (bakeReferendum cfg rt n status).run s with
  | ok approved s₁ =>
      have hbaked : Dispatch.commit (bakeReferenda cfg rt n [(index, status)]) s =
          s₁.finish index approved n := Dispatch.commit_bind_of_ok hbake
      obtain ⟨preimage, -, -, hs₁⟩ := bakeReferendum_ok hbake
      rw [if_neg hdelay] at hs₁
      refine .inr ⟨approved, s₁, ?_, hbaked⟩
      split at hs₁
      · exact .inr hs₁
      · exact .inl hs₁
  | error e s₁ =>
      have hbaked : Dispatch.commit (bakeReferenda cfg rt n [(index, status)]) s = s₁ :=
        Dispatch.commit_bind_of_error hbake
      exact .inl (hbaked.trans (bakeReferendum_error hbake).2)

/-- It takes no preimage away. -/
theorem availablePreimage_baked {n : ℕ} {s : State A H} {r : ℕ × ReferendumStatus H}
    (hdelay : r.2.delay ≠ 0) (h : H) :
    ((s.baked cfg rt n [r]).availablePreimage h).isSome = (s.availablePreimage h).isSome := by
  rcases baked_of_delay cfg rt s hdelay with hsame | ⟨_, s₁, hs₁, hbaked⟩
  · rw [hsame]
  · rw [hbaked]
    rcases hs₁ with rfl | rfl
    · rfl
    · exact availablePreimage_need s r.2.proposalHash h (n + r.2.delay)

/-- It ends no other referendum. -/
theorem endsAt_baked {n m : ℕ} {s : State A H} {r : ℕ × ReferendumStatus H}
    (hdelay : r.2.delay ≠ 0) {i : ℕ} (hne : i ≠ r.1) (hi : s.EndsAt i m) :
    (s.baked cfg rt n [r]).EndsAt i m := by
  rcases baked_of_delay cfg rt s hdelay with hsame | ⟨_, s₁, hs₁, hbaked⟩
  · rwa [hsame]
  · obtain ⟨status, hstatus, hend⟩ := hi
    refine ⟨status, ?_, hend⟩
    rw [hbaked, State.finish, AList.lookup_insert_ne hne]
    rcases hs₁ with rfl | rfl
    · exact hstatus
    · exact hstatus

/-- Nor does it start one. -/
theorem endsAt_of_baked {n m : ℕ} {s : State A H} {r : ℕ × ReferendumStatus H}
    (hdelay : r.2.delay ≠ 0) {i : ℕ} (hi : (s.baked cfg rt n [r]).EndsAt i m) : s.EndsAt i m := by
  rcases baked_of_delay cfg rt s hdelay with hsame | ⟨approved, s₁, hs₁, hbaked⟩
  · rwa [hsame] at hi
  · rw [hbaked] at hi
    have hne : i ≠ r.1 := by
      rintro rfl
      exact not_endsAt_finish s₁ r.1 approved n m hi
    obtain ⟨status, hstatus, hend⟩ := hi
    rw [State.finish, AList.lookup_insert_ne hne] at hstatus
    rcases hs₁ with rfl | rfl
    · exact ⟨status, hstatus, hend⟩
    · exact ⟨status, hstatus, hend⟩

/-- When nothing is enacted at once, all that counts is which preimages are available before the
first referendum is baked. -/
theorem available_iff (cfg : Config A H) (rt : Runtime A H) {n : ℕ}
    {l : List (ℕ × ReferendumStatus H)} {s : State A H} (hdelay : ∀ r ∈ l, r.2.delay ≠ 0)
    (hnodup : (l.map Prod.fst).Nodup) (hends : ∀ r ∈ l, s.EndsAt r.1 n) :
    Available cfg rt n s l ↔ ∀ r ∈ l, (s.availablePreimage r.2.proposalHash).isSome := by
  induction l generalizing s with
  | nil => simp [Available]
  | cons r rest ih =>
      obtain ⟨hr, hnodup⟩ := List.nodup_cons.mp hnodup
      have hdelayr : r.2.delay ≠ 0 := hdelay r List.mem_cons_self
      unfold Available
      split
      · rename_i hsome
        have hrest := ih (s := s.baked cfg rt n [r])
          (fun r' hr' => hdelay r' (List.mem_cons_of_mem r hr')) hnodup fun r' hr' => by
            have hne : r'.1 ≠ r.1 := fun h => hr (h ▸ List.mem_map_of_mem hr')
            exact endsAt_baked hdelayr hne (hends r' (List.mem_cons_of_mem r hr'))
        rw [hrest]
        simp [availablePreimage_baked hdelayr, hsome]
      · rename_i hnone
        constructor
        · exact fun h => absurd (hends r List.mem_cons_self) (h r List.mem_cons_self)
        · exact fun h => absurd (h r List.mem_cons_self) hnone

/-! ## The start of a block -/

omit [DecidableEq A] [DecidableEq H] in
/-- The referenda that mature at a block are those that are ongoing and end at it. -/
theorem endsAt_iff_maturing (hs : Indexed s) (i n : ℕ) :
    s.EndsAt i n ↔
      i ∈ (s.maturingReferendaAtInner n s.lowestUnbaked s.referendumCount).map Prod.fst := by
  simp only [State.maturingReferendaAtInner, List.mem_map, List.mem_filterMap, hs.lowest,
    List.mem_range'_1]
  constructor
  · intro hi
    have hindex := hs.index i n hi
    obtain ⟨status, hstatus, hend⟩ := hi
    exact ⟨(i, status), ⟨i, ⟨Nat.zero_le i, by omega⟩, by rw [hstatus]; exact if_pos hend⟩, rfl⟩
  · rintro ⟨⟨j, status⟩, ⟨k, -, hk⟩, rfl⟩
    split at hk
    · rename_i status' hstatus
      split at hk
      · rename_i hend
        cases hk
        exact ⟨status, hstatus, hend⟩
      · cases hk
    · cases hk

/-- Entries that carry the numbers they were made from are apart. -/
theorem nodup_map_fst_filterMap {V : Type} {f : ℕ → Option (ℕ × V)}
    (hf : ∀ i r, f i = some r → r.1 = i) {l : List ℕ} (hl : l.Nodup) :
    ((l.filterMap f).map Prod.fst).Nodup := by
  rw [List.map_filterMap]
  refine List.Nodup.filterMap (fun i j k hi hj => ?_) hl
  obtain ⟨r, hr, rfl⟩ := Option.map_eq_some_iff.mp hi
  obtain ⟨r', hr', hfst⟩ := Option.map_eq_some_iff.mp hj
  rw [← hf i r hr, ← hf j r' hr', hfst]

omit [DecidableEq A] [DecidableEq H] in
theorem nodup_maturingReferendaAtInner (s : State A H) (n next last : ℕ) :
    ((s.maturingReferendaAtInner n next last).map Prod.fst).Nodup := by
  unfold State.maturingReferendaAtInner
  refine nodup_map_fst_filterMap (fun i r hr => ?_) List.nodup_range'
  split at hr
  · split at hr
    · cases hr
      rfl
    · cases hr
  · cases hr

omit [DecidableEq A] [DecidableEq H] in
theorem endsAt_of_mem_maturing {n next last : ℕ} {r : ℕ × ReferendumStatus H}
    (hr : r ∈ s.maturingReferendaAtInner n next last) : s.EndsAt r.1 n := by
  obtain ⟨i, -, hi⟩ := List.mem_filterMap.mp hr
  split at hi
  · rename_i status hstatus
    split at hi
    · rename_i hend
      cases hi
      exact ⟨status, hstatus, hend⟩
    · cases hi
  · cases hi

/-- Nothing is started where nothing is enacted. -/
theorem startsNone_of_delay {n : ℕ} {l : List (ℕ × ReferendumStatus H)} {s : State A H}
    (hs : Indexed s) (hdelay : ∀ r ∈ l, r.2.delay ≠ 0) : StartsNone cfg rt n s l := by
  induction l generalizing s with
  | nil => trivial
  | cons r rest ih =>
      refine ⟨fun i hi hends => ?_, ih (hs.of_kept (kept_baked n s [r])) fun r' hr' =>
        hdelay r' (List.mem_cons_of_mem r hr')⟩
      have hold : s.EndsAt i n := endsAt_of_baked (hdelay r List.mem_cons_self) hends
      have hindex := hs.index i n hold
      omega

/-- **Matured referenda are finished, if their preimages are there.** In every state that the chain
can reach, at the start of block `n`: if every maturing referendum finds its preimage in turn, and
no proposal that is enacted on the way starts a referendum that ends at `n`, then none that ends at
`n` is ongoing afterwards; if none is, then every maturing referendum found its preimage; and when
none of them is to be enacted at once, this is about the preimages there are before. -/
theorem beginBlock_finishes (cfg : Config A H) (rt : Runtime A H) (hs : Genesis s)
    (steps : List (Step A H)) (n : ℕ) :
    let t : State A H := { Machine.run (step cfg rt) s steps with blockNumber := n }
    let maturing := t.maturing cfg n
    let finishes := ∀ i, ¬ (Dispatch.commit (beginBlock cfg rt n) t).EndsAt i n
    (Available cfg rt n (t.launched cfg n) maturing ∧
      StartsNone cfg rt n (t.launched cfg n) maturing → finishes) ∧
    (finishes → Available cfg rt n (t.launched cfg n) maturing) ∧
    ((∀ r ∈ maturing, r.2.delay ≠ 0) → (finishes ↔
      ∀ r ∈ maturing, ((t.launched cfg n).availablePreimage r.2.proposalHash).isSome)) := by
  intro t maturing finishes
  have ht : Indexed t := by
    have hrun := indexed_of_run cfg rt hs steps
    exact ⟨hrun.lowest, hrun.index⟩
  have hlaunched : Indexed (t.launched cfg n) := ht.of_kept (happens_launched t n).kept
  have hbaked : Dispatch.commit (beginBlock cfg rt n) t =
      (t.launched cfg n).baked cfg rt n maturing := commit_beginBlock rt n t
  have henough : Available cfg rt n (t.launched cfg n) maturing →
      StartsNone cfg rt n (t.launched cfg n) maturing → finishes := by
    intro havailable hstarts i
    rw [hbaked]
    exact finishes_of_available havailable hstarts
      (fun j hj => (endsAt_iff_maturing hlaunched j n).mp hj) i
  have hneeded : finishes → Available cfg rt n (t.launched cfg n) maturing := by
    intro hfinishes
    refine available_of_finishes fun r _ => ?_
    rw [← hbaked]
    exact hfinishes r.1
  refine ⟨fun h => henough h.1 h.2, hneeded, fun hdelay => ?_⟩
  have havailable := available_iff cfg rt hdelay
    (nodup_maturingReferendaAtInner (t.launched cfg n) n _ _)
    fun r hr => endsAt_of_mem_maturing hr
  rw [← havailable]
  exact ⟨hneeded, fun h => henough h (startsNone_of_delay hlaunched hdelay)⟩

/-- Two referenda that end at block 4; the first one may have its preimage noted. -/
def twoMaturing (noted : List (Step ℕ ℕ)) : List (Step ℕ ℕ) :=
  [.call (.externalProposeMajority 1), .nextBlock, .nextBlock,
    .call (.externalProposeMajority 2), .call (.fastTrack ⟨true, false⟩ 2 2 2),
    .call (.notePreimage 1 (.Token .SETT) [0, 0])] ++ noted ++ [.nextBlock]

/-- With both preimages, both are finished. -/
theorem twoMaturing_finished :
    ¬ (Dispatch.commit (beginBlock sampleConfig sampleRuntime 4)
      { Machine.run (step sampleConfig sampleRuntime) sampleGenesis
          (twoMaturing [.call (.notePreimage 2 (.Token .SETT) [0])])
        with blockNumber := 4 }).EndsAt 0 4 ∧
    ¬ (Dispatch.commit (beginBlock sampleConfig sampleRuntime 4)
      { Machine.run (step sampleConfig sampleRuntime) sampleGenesis
          (twoMaturing [.call (.notePreimage 2 (.Token .SETT) [0])])
        with blockNumber := 4 }).EndsAt 1 4 := by
  have hfinishes := ((beginBlock_finishes sampleConfig sampleRuntime sampleGenesis_genesis
    (twoMaturing [.call (.notePreimage 2 (.Token .SETT) [0])]) 4).2.2 (by decide +kernel)).mpr
    (by decide +kernel)
  exact ⟨hfinishes 0, hfinishes 1⟩

/-- Without the first one's preimage, neither is. -/
theorem twoMaturing_ongoing :
    (Dispatch.commit (beginBlock sampleConfig sampleRuntime 4)
      { Machine.run (step sampleConfig sampleRuntime) sampleGenesis (twoMaturing [])
        with blockNumber := 4 }).EndsAt 0 4 ∧
    (Dispatch.commit (beginBlock sampleConfig sampleRuntime 4)
      { Machine.run (step sampleConfig sampleRuntime) sampleGenesis (twoMaturing [])
        with blockNumber := 4 }).EndsAt 1 4 :=
  ⟨⟨⟨4, 1, .simpleMajority, 2, 0⟩, by decide +kernel, rfl⟩,
    ⟨⟨4, 2, .simpleMajority, 2, 0⟩, by decide +kernel, rfl⟩⟩

end Setheum.Democracy
