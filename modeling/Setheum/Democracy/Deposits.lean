import Setheum.Democracy.Effects
import Mathlib.Data.List.Count

/-!
# The deposits of democracy

Public proposals and preimages are backed by deposits, which are reserved in the governance
currencies. This is the part of the storages that keeps them, and what each act does to it. Votes,
delegations and referenda do nothing to it.

* `deposits_call` — the calls that are not about deposits.
* `Deposits.release` — a proposal leaves, and every depositor loses the amount on record.
* `deposits_launchNext`, `deposits_slashProposal`, `deposits_blacklist` — the ways to leave.
-/

set_option autoImplicit false

namespace Setheum.Democracy

open StorageMap

/-- The storages that keep the deposits. -/
structure Deposits (A H : Type) where
  tokens : CurrencyId → Reserves A
  publicPropCount : ℕ
  publicProps : List (ℕ × H × A)
  depositOf : Map ℕ (Deposit A)
  preimages : Map H (PreimageStatus A)

variable {A H : Type}

def State.deposits (s : State A H) : Deposits A H :=
  ⟨s.tokens, s.publicPropCount, s.publicProps, s.depositOf, s.preimages⟩

/-- The indices of the queued proposals. -/
def Deposits.queue (v : Deposits A H) : List ℕ := v.publicProps.map Prod.fst

variable [DecidableEq A] [DecidableEq H]

/-! ## Calls about something else -/

/-- The call is about public proposals or preimages. -/
def Call.aboutDeposits : Call A H → Bool
  | .propose _ _ _ _ | .second _ _ _ _ | .clearPublicProposals | .notePreimage _ _ _
  | .noteImminentPreimage _ _ _ | .reapPreimage _ _ _ | .blacklist _ _ | .cancelProposal _ => true
  | _ => false

section Elsewhere

variable {cfg : Config A H} {s : State A H} {v : Deposits A H}

/-- The deposits are what they were, whatever the outcome. -/
abbrev KeepsDeposits {α : Type} (v : Deposits A H) (x : DemocracyM A H α) : Prop :=
  Dispatch.Preserves (fun s => s.deposits = v) x

omit [DecidableEq A] [DecidableEq H] in
theorem keepsDeposits_referendumStatus (refIndex : ℕ) :
    KeepsDeposits v (referendumStatus (A := A) (H := H) refIndex) := by
  refine Dispatch.preserves_get_bind fun s _ => ?_
  split
  · exact Dispatch.preserves_pure _
  · exact Dispatch.preserves_throw _

omit [DecidableEq A] [DecidableEq H] in
theorem keepsDeposits_retract (votes : Map ℕ AccountVote) (delegations : Delegations)
    (refIndex : ℕ) (tally : Tally) :
    KeepsDeposits v (retract cfg votes delegations refIndex tally) := by
  unfold retract
  split
  · exact Dispatch.preserves_bind Dispatch.preserves_okOr fun _ => Dispatch.preserves_pure _
  · exact Dispatch.preserves_bind Dispatch.preserves_ensure fun _ => Dispatch.preserves_pure _

omit [DecidableEq H] in
theorem deposits_increaseUpstreamDelegation (s : State A H) (who : A) (amount : Delegations) :
    (s.increaseUpstreamDelegation who amount).deposits = s.deposits := by
  unfold State.increaseUpstreamDelegation
  split <;> rfl

omit [DecidableEq H] in
theorem deposits_reduceUpstreamDelegation (s : State A H) (who : A) (amount : Delegations) :
    (s.reduceUpstreamDelegation who amount).deposits = s.deposits := by
  unfold State.reduceUpstreamDelegation
  split <;> rfl

omit [DecidableEq H] in
theorem deposits_startDelegation (s : State A H) (who target : A) (conviction : Conviction)
    (balance : ℕ) (delegations : Delegations) (prior : PriorLock) :
    (s.startDelegation who target conviction balance delegations prior).deposits = s.deposits :=
  deposits_increaseUpstreamDelegation s target (conviction.votes balance)

omit [DecidableEq H] in
theorem keepsDeposits_tryVote (who : A) (refIndex : ℕ) (vote : AccountVote) :
    KeepsDeposits v (tryVote (H := H) cfg who refIndex vote) := by
  refine Dispatch.preserves_bind (keepsDeposits_referendumStatus refIndex) fun status => ?_
  refine Dispatch.preserves_get_bind fun s hs => ?_
  refine Dispatch.preserves_bind Dispatch.preserves_ensure fun _ => ?_
  split
  · exact Dispatch.preserves_bind (keepsDeposits_retract _ _ _ _) fun _ =>
      Dispatch.preserves_set hs
  · exact Dispatch.preserves_throw _

omit [DecidableEq H] in
theorem keepsDeposits_tryRemoveVote (who : A) (refIndex : ℕ) (scope : UnvoteScope) :
    KeepsDeposits v (tryRemoveVote (H := H) cfg who refIndex scope) := by
  refine Dispatch.preserves_get_bind fun s hs => ?_
  split
  · refine Dispatch.preserves_bind Dispatch.preserves_okOr fun old => ?_
    dsimp only
    split
    · refine Dispatch.preserves_bind Dispatch.preserves_ensure fun _ => ?_
      exact Dispatch.preserves_bind Dispatch.preserves_okOr fun _ => Dispatch.preserves_set hs
    · split
      · split
        · exact Dispatch.preserves_bind Dispatch.preserves_ensure fun _ =>
            Dispatch.preserves_set hs
        · exact Dispatch.preserves_set hs
      · exact Dispatch.preserves_set hs
    · exact Dispatch.preserves_set hs
  · exact Dispatch.preserves_pure _

omit [DecidableEq H] in
theorem keepsDeposits_tryDelegate (who target : A) (conviction : Conviction) (balance : ℕ) :
    KeepsDeposits v (tryDelegate (H := H) who target conviction balance) := by
  refine Dispatch.preserves_bind Dispatch.preserves_ensure fun _ => ?_
  refine Dispatch.preserves_get_bind fun s hs => ?_
  refine Dispatch.preserves_bind Dispatch.preserves_ensure fun _ => ?_
  split
  · refine Dispatch.preserves_set ?_
    rw [deposits_startDelegation, deposits_reduceUpstreamDelegation]
    exact hs
  · refine Dispatch.preserves_bind Dispatch.preserves_ensure fun _ => Dispatch.preserves_set ?_
    rw [deposits_startDelegation]
    exact hs

omit [DecidableEq H] in
theorem keepsDeposits_tryUndelegate (who : A) :
    KeepsDeposits v (tryUndelegate (H := H) cfg who) := by
  refine Dispatch.preserves_get_bind fun s hs => ?_
  split
  · exact Dispatch.preserves_set ((deposits_reduceUpstreamDelegation s _ _).trans hs)
  · exact Dispatch.preserves_throw _

omit [DecidableEq A] in
theorem keepsDeposits_ensureNotBlacklisted (s : State A H) (h : H) :
    KeepsDeposits v (ensureNotBlacklisted s h) := by
  unfold ensureNotBlacklisted
  split
  · exact Dispatch.preserves_ensure
  · exact Dispatch.preserves_pure _

omit [DecidableEq A] in
theorem keepsDeposits_externalPropose (h : H) :
    KeepsDeposits v (externalPropose (A := A) h) := by
  refine Dispatch.preserves_get_bind fun s hs => ?_
  refine Dispatch.preserves_bind Dispatch.preserves_ensure fun _ => ?_
  exact Dispatch.preserves_bind (keepsDeposits_ensureNotBlacklisted s h) fun _ =>
    Dispatch.preserves_set hs

omit [DecidableEq A] in
theorem keepsDeposits_fastTrack (origin : FastTrackOrigin) (h : H) (votingPeriod delay : ℕ) :
    KeepsDeposits v (fastTrack cfg origin h votingPeriod delay) := by
  refine Dispatch.preserves_bind Dispatch.preserves_ensure fun _ => ?_
  refine Dispatch.preserves_bind Dispatch.preserves_ensure fun _ => ?_
  refine Dispatch.preserves_get_bind fun s hs => ?_
  refine Dispatch.preserves_bind Dispatch.preserves_okOr fun _ => ?_
  refine Dispatch.preserves_bind Dispatch.preserves_ensure fun _ => ?_
  exact Dispatch.preserves_bind Dispatch.preserves_ensure fun _ => Dispatch.preserves_set hs

theorem keepsDeposits_vetoExternal (who : A) (h : H) :
    KeepsDeposits v (vetoExternal cfg who h) := by
  refine Dispatch.preserves_get_bind fun s hs => ?_
  refine Dispatch.preserves_bind Dispatch.preserves_okOr fun _ => ?_
  refine Dispatch.preserves_bind Dispatch.preserves_ensure fun _ => ?_
  exact Dispatch.preserves_bind Dispatch.preserves_ensure fun _ => Dispatch.preserves_set hs

omit [DecidableEq A] in
theorem keepsDeposits_emergencyCancel (refIndex : ℕ) :
    KeepsDeposits v (emergencyCancel (A := A) (H := H) refIndex) := by
  refine Dispatch.preserves_bind (keepsDeposits_referendumStatus refIndex) fun status => ?_
  refine Dispatch.preserves_get_bind fun s hs => ?_
  exact Dispatch.preserves_bind Dispatch.preserves_ensure fun _ => Dispatch.preserves_set hs

/-- **A call that is not about deposits changes none.** -/
theorem deposits_call (cfg : Config A H) (s : State A H) {c : Call A H}
    (hc : c.aboutDeposits = false) : (Dispatch.commit (c.call cfg) s).deposits = s.deposits := by
  have hkeeps : KeepsDeposits s.deposits (c.call cfg) := by
    cases c with
    | vote who refIndex vote => exact keepsDeposits_tryVote who refIndex vote
    | emergencyCancel refIndex => exact keepsDeposits_emergencyCancel refIndex
    | externalPropose h => exact keepsDeposits_externalPropose h
    | externalProposeMajority h => exact Dispatch.preserves_modify fun _ hs => hs
    | externalProposeDefault h => exact Dispatch.preserves_modify fun _ hs => hs
    | fastTrack origin h votingPeriod delay =>
        exact keepsDeposits_fastTrack origin h votingPeriod delay
    | vetoExternal who h => exact keepsDeposits_vetoExternal who h
    | cancelReferendum refIndex => exact Dispatch.preserves_modify fun _ hs => hs
    | delegate who target conviction balance =>
        exact keepsDeposits_tryDelegate who target conviction balance
    | undelegate who => exact keepsDeposits_tryUndelegate who
    | unlock target => exact Dispatch.preserves_modify fun _ hs => hs
    | removeVote who refIndex => exact keepsDeposits_tryRemoveVote who refIndex _
    | removeOtherVote who target refIndex => exact keepsDeposits_tryRemoveVote target refIndex _
    | propose | second | clearPublicProposals | notePreimage | noteImminentPreimage
    | reapPreimage | blacklist | cancelProposal => cases hc
  exact hkeeps s rfl

end Elsewhere

/-! ## Leaving the queue -/

/-- A proposal leaves with its record, and each depositor loses what `take` takes. -/
def Deposits.release (v : Deposits A H) (i : ℕ) (d : Deposit A) (queue : List (ℕ × H × A))
    (take : A → Reserves A → Reserves A) : Deposits A H :=
  { v with
    tokens := fun c =>
      if c = d.currency then d.depositors.foldl (fun r who => take who r) (v.tokens c)
      else v.tokens c
    publicProps := queue
    depositOf := v.depositOf.erase i }

section Leaving

variable {cfg : Config A H} {s : State A H}

omit [DecidableEq A] [DecidableEq H] in
/-- Taking from several accounts, one after the other, in one currency. -/
theorem deposits_foldl_setTokens (c : CurrencyId) (take : A → Reserves A → Reserves A)
    (whos : List A) (s : State A H) :
    (whos.foldl (fun s who => s.setTokens c (take who (s.tokens c))) s).deposits =
      { s.deposits with
        tokens := fun c' =>
          if c' = c then whos.foldl (fun r who => take who r) (s.tokens c') else s.tokens c' } := by
  induction whos generalizing s with
  | nil =>
      have htokens : (fun c' => if c' = c then s.tokens c' else s.tokens c') = s.tokens := by
        funext c'
        split <;> rfl
      simp only [List.foldl_nil, htokens]
      rfl
  | cons who whos ih =>
      rw [List.foldl_cons, ih]
      have htokens : (fun c' =>
          if c' = c then
            whos.foldl (fun r who => take who r) ((s.setTokens c (take who (s.tokens c))).tokens c')
          else (s.setTokens c (take who (s.tokens c))).tokens c') =
          fun c' =>
            if c' = c then (who :: whos).foldl (fun r who => take who r) (s.tokens c')
            else s.tokens c' := by
        funext c'
        by_cases hc : c' = c
        · subst hc
          simp [State.setTokens]
        · simp [State.setTokens, hc]
      rw [htokens]
      rfl

omit [DecidableEq H] in
theorem deposits_slashProposal {i : ℕ} {d : Deposit A} (hd : s.depositOf.lookup i = some d) :
    (s.slashProposal cfg i).deposits = s.deposits.release i d s.publicProps
      (fun who => Reserves.slashReserved who cfg.treasury d.amount) := by
  unfold State.slashProposal
  simp only [hd]
  exact deposits_foldl_setTokens d.currency
    (fun who => Reserves.slashReserved who cfg.treasury d.amount) d.depositors
    { s with depositOf := s.depositOf.erase i }

omit [DecidableEq H] in
theorem deposits_table {w i : ℕ} {d : Deposit A} (hd : s.depositOf.lookup i = some d) :
    (s.table w i).deposits = s.deposits.release i d (swapRemove s.publicProps w)
      (fun who => Reserves.unreserve who d.amount) := by
  unfold State.table
  simp only [hd]
  exact deposits_foldl_setTokens d.currency (fun who => Reserves.unreserve who d.amount)
    d.depositors { s with
      publicProps := swapRemove s.publicProps w
      depositOf := s.depositOf.erase i }

/-- The queued proposal that a launch tables, with its place in the queue. -/
def State.tabled (s : State A H) : Option (ℕ × ℕ) :=
  if s.lastTabledWasExternal = true ∨ s.nextExternal = none then
    (maxByKey (fun p => (s.backingFor p.1).getD 0) s.publicProps).map fun w => (w.1, w.2.1)
  else none

omit [DecidableEq H] in
/-- Tabling depends on the deposits only. -/
theorem deposits_table_congr {t : State A H} (h : t.deposits = s.deposits) (w i : ℕ) :
    (t.table w i).deposits = (s.table w i).deposits := by
  have hdepositOf : t.depositOf = s.depositOf := congrArg Deposits.depositOf h
  have hprops : t.publicProps = s.publicProps := congrArg Deposits.publicProps h
  cases hd : s.depositOf.lookup i with
  | some d =>
      have hd' : t.depositOf.lookup i = some d := by rw [hdepositOf, hd]
      rw [deposits_table hd, deposits_table hd', h, hprops]
  | none =>
      have hd' : t.depositOf.lookup i = none := by rw [hdepositOf, hd]
      simp only [State.table, hd, hd', hprops]
      have hsame : { t.deposits with publicProps := swapRemove s.publicProps w } =
          { s.deposits with publicProps := swapRemove s.publicProps w } := by rw [h]
      exact hsame

omit [DecidableEq A] [DecidableEq H] in
theorem launchExternal_error (now : ℕ) (hnone : s.nextExternal = none) :
    (launchExternal cfg now).run s = .error .NoneWaiting s := by
  unfold launchExternal
  rw [Dispatch.run_get_bind]
  simp only [hnone]
  rfl

omit [DecidableEq A] [DecidableEq H] in
theorem launchExternal_ok (now : ℕ) {e : H × VoteThreshold} (he : s.nextExternal = some e) :
    ∃ s', (launchExternal cfg now).run s = .ok () s' ∧ s'.deposits = s.deposits := by
  unfold launchExternal
  rw [Dispatch.run_get_bind]
  simp only [he]
  exact ⟨_, rfl, rfl⟩

omit [DecidableEq H] in
theorem launchPublic_error (now : ℕ)
    (hnone : maxByKey (fun p => (s.backingFor p.1).getD 0) s.publicProps = none) :
    (launchPublic cfg now).run s = .error .NoneWaiting s := by
  unfold launchPublic
  rw [Dispatch.run_get_bind]
  simp only [hnone]
  rfl

omit [DecidableEq H] in
theorem launchPublic_ok (now : ℕ) {w : ℕ × ℕ × H × A}
    (hw : maxByKey (fun p => (s.backingFor p.1).getD 0) s.publicProps = some w) :
    ∃ s', (launchPublic cfg now).run s = .ok () s' ∧
      s'.deposits = (s.table w.1 w.2.1).deposits := by
  obtain ⟨winnerIndex, propIndex, proposal, proposer⟩ := w
  unfold launchPublic
  rw [Dispatch.run_get_bind]
  simp only [hw]
  split
  · exact ⟨_, rfl, rfl⟩
  · exact ⟨_, rfl, rfl⟩

omit [DecidableEq A] [DecidableEq H] in
theorem commit_orElse_of_ok {x y : DemocracyM A H Unit} {s' : State A H}
    (hx : x.run s = .ok () s') : Dispatch.commit (orElse x y) s = s' := by
  have hattempt : (Dispatch.attempt x).run s = .ok (.ok ()) s' :=
    Dispatch.run_attempt_ok.mpr (.inl ⟨(), hx, rfl⟩)
  exact Dispatch.commit_bind_of_ok hattempt

omit [DecidableEq A] [DecidableEq H] in
theorem commit_orElse_of_error {x y : DemocracyM A H Unit} {e : Error}
    (hx : x.run s = .error e s) : Dispatch.commit (orElse x y) s = Dispatch.commit y s := by
  have hattempt : (Dispatch.attempt x).run s = .ok (.error e) s :=
    Dispatch.run_attempt_ok.mpr (.inr ⟨e, hx, rfl⟩)
  exact Dispatch.commit_bind_of_ok hattempt

omit [DecidableEq H] in
/-- **What a launch does to the deposits.** -/
theorem deposits_launchNext (cfg : Config A H) (now : ℕ) (s : State A H) :
    (Dispatch.commit (launchNext cfg now) s).deposits =
      s.tabled.elim s.deposits fun w => (s.table w.1 w.2).deposits := by
  let t : State A H := { s with lastTabledWasExternal := false }
  have hrest : Dispatch.commit (launchNext cfg now) s =
      Dispatch.commit
        (if s.lastTabledWasExternal then orElse (launchPublic cfg now) (launchExternal cfg now)
          else orElse (launchExternal cfg now) (launchPublic cfg now)) t := rfl
  have hexternal : ∀ e, s.nextExternal = some e →
      ∃ s', (launchExternal cfg now).run t = .ok () s' ∧ s'.deposits = s.deposits :=
    fun e he => launchExternal_ok (s := t) now he
  have hmissing : s.nextExternal = none →
      (launchExternal cfg now).run t = .error .NoneWaiting t :=
    fun h => launchExternal_error (s := t) now h
  rw [hrest]
  cases hwinner : maxByKey (fun p => (s.backingFor p.1).getD 0) s.publicProps with
  | none =>
      have htabled : s.tabled = none := by simp [State.tabled, hwinner]
      have hpublic : (launchPublic cfg now).run t = .error .NoneWaiting t :=
        launchPublic_error (s := t) now hwinner
      rw [htabled]
      cases hnext : s.nextExternal with
      | none =>
          have hlast := hmissing hnext
          split
          · rw [commit_orElse_of_error hpublic, Dispatch.commit_of_error hlast]
            rfl
          · rw [commit_orElse_of_error hlast, Dispatch.commit_of_error hpublic]
            rfl
      | some e =>
          obtain ⟨s', hok, hsame⟩ := hexternal e hnext
          split
          · rw [commit_orElse_of_error hpublic, Dispatch.commit_of_ok hok]
            exact hsame
          · rw [commit_orElse_of_ok hok]
            exact hsame
  | some w =>
      obtain ⟨s', hok, htable⟩ := launchPublic_ok (s := t) now hwinner
      have hsame : s'.deposits = (s.table w.1 w.2.1).deposits :=
        htable.trans (deposits_table_congr (s := s) (t := t) rfl w.1 w.2.1)
      split
      · rename_i hlast
        rw [commit_orElse_of_ok hok]
        simpa [State.tabled, hlast, hwinner] using hsame
      · rename_i hlast
        cases hnext : s.nextExternal with
        | none =>
            rw [commit_orElse_of_error (hmissing hnext), Dispatch.commit_of_ok hok]
            simpa [State.tabled, hnext, hwinner] using hsame
        | some e =>
            obtain ⟨s', hok, hkept⟩ := hexternal e hnext
            rw [commit_orElse_of_ok hok]
            simpa [State.tabled, hlast, hnext] using hkept

omit [DecidableEq A] in
/-- Cancelling a referendum changes no deposit. -/
theorem deposits_cancelMatching (s : State A H) (h : H) (refIndex : ℕ) :
    (s.cancelMatching h refIndex).deposits = s.deposits := by
  unfold State.cancelMatching
  split
  · split <;> rfl
  · rfl

/-- **What a blacklisting does to the deposits.** -/
theorem deposits_blacklist (cfg : Config A H) (s : State A H) (h : H)
    (maybeRefIndex : Option ℕ) :
    (Dispatch.commit (blacklist cfg h maybeRefIndex) s).deposits =
      (State.removeQueued cfg
        { s with blacklist := s.blacklist.insert h (cfg.maxBlockNumber, []) } h).deposits := by
  have hcommit : Dispatch.commit (blacklist cfg h maybeRefIndex) s =
      (fun t : State A H =>
        let t := t.removeQueued cfg h
        let t :=
          if t.nextExternal.map Prod.fst = some h then { t with nextExternal := none } else t
        maybeRefIndex.elim t (t.cancelMatching h))
        { s with blacklist := s.blacklist.insert h (cfg.maxBlockNumber, []) } := rfl
  have hcleared : ∀ t : State A H,
      (if t.nextExternal.map Prod.fst = some h then { t with nextExternal := none }
        else t).deposits = t.deposits := by
    intro t
    split <;> rfl
  rw [hcommit]
  dsimp only
  cases maybeRefIndex with
  | none => exact hcleared _
  | some refIndex => exact (deposits_cancelMatching _ h refIndex).trans (hcleared _)

end Leaving

end Setheum.Democracy
