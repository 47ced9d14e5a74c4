import Setheum.Democracy.Model

/-!
# Votes and delegations

An account either votes itself or delegates its votes to another account. A delegation adds to the
delegations of its target, and through them to the tally of every ongoing referendum that the
target has cast a standard vote in. Delegations of a delegate go no further.
-/

set_option autoImplicit false

namespace Setheum.Democracy

open StorageMap

/-- Add delegations on the side of a standard vote. -/
def Tally.increaseStandard (vote : AccountVote) (delegations : Delegations) (t : Tally) : Tally :=
  match vote.asStandard with
  | some approve => t.increase approve delegations
  | none => t

/-- Take delegations off the side of a standard vote. -/
def Tally.reduceStandard (vote : AccountVote) (delegations : Delegations) (t : Tally) : Tally :=
  match vote.asStandard with
  | some approve => t.reduce approve delegations
  | none => t

variable {A H : Type} [DecidableEq A] [DecidableEq H] (cfg : Config A H)

def State.voting (s : State A H) (who : A) : Voting A :=
  StorageMap.get Voting.default s.votingOf who

def State.setVoting (s : State A H) (who : A) (voting : Voting A) : State A H :=
  { s with votingOf := s.votingOf.insert who voting }

/-- Extend the lock on an account to an amount. -/
def State.extendLock (s : State A H) (who : A) (amount : ℕ) : State A H :=
  { s with lock := fun a => if a = who then max (s.lock a) amount else s.lock a }

/-- Set the lock on an account; to nothing, remove it. -/
def State.setLock (s : State A H) (who : A) (amount : ℕ) : State A H :=
  { s with lock := fun a => if a = who then amount else s.lock a }

def State.setTally (s : State A H) (refIndex : ℕ) (status : ReferendumStatus H) (tally : Tally) :
    State A H :=
  { s with referendumInfoOf :=
      s.referendumInfoOf.insert refIndex (.ongoing { status with tally := tally }) }

/-! ## Votes -/

/-- The tally without the vote that an account has cast, if any; a first vote needs room. -/
def retract (votes : Map ℕ AccountVote) (delegations : Delegations) (refIndex : ℕ)
    (tally : Tally) : DemocracyM A H Tally :=
  match votes.lookup refIndex with
  | some old => do
      let tally ← Dispatch.okOr (tally.remove old) .Underflow
      pure (tally.reduceStandard old delegations)
  | none => do
      Dispatch.ensure (votes.keys.length ≤ cfg.maxVotes) .MaxVotesReached
      pure tally

/-- Actually enact a vote, if legit. -/
def tryVote (who : A) (refIndex : ℕ) (vote : AccountVote) : DemocracyM A H Unit := do
  let status ← referendumStatus refIndex
  let s ← get
  Dispatch.ensure (vote.balance ≤ s.freeBalance who) .InsufficientFunds
  match s.voting who with
  | .direct votes delegations prior => do
      let tally ← retract cfg votes delegations refIndex status.tally
      let tally := (tally.add vote).increaseStandard vote delegations
      let voting := Voting.direct (votes.insert refIndex vote) delegations prior
      set (((s.setVoting who voting).extendLock who vote.balance).setTally refIndex status tally)
  | .delegating _ _ _ _ _ => throw .AlreadyDelegating

/-- Remove the account's vote for the given referendum if possible. -/
def tryRemoveVote (who : A) (refIndex : ℕ) (scope : UnvoteScope) : DemocracyM A H Unit := do
  let s ← get
  match s.voting who with
  | .direct votes delegations prior => do
      let old ← Dispatch.okOr (votes.lookup refIndex) .NotVoter
      let removed := Voting.direct (votes.erase refIndex) delegations prior
      match s.referendumInfoOf.lookup refIndex with
      | some (.ongoing status) => do
          Dispatch.ensure (scope = .any) .NoPermission
          let tally ← Dispatch.okOr (status.tally.remove old) .Underflow
          let tally := tally.reduceStandard old delegations
          set ((s.setVoting who removed).setTally refIndex status tally)
      | some (.finished approved endBlock) =>
          match old.lockedIf approved with
          | some (lockPeriods, balance) => do
              let unlockAt := endBlock + cfg.enactmentPeriod * lockPeriods
              if s.blockNumber < unlockAt then do
                Dispatch.ensure (scope = .any) .NoPermission
                let prior := prior.accumulate unlockAt balance
                set (s.setVoting who (removed.setCommon delegations prior))
              else set (s.setVoting who removed)
          | none => set (s.setVoting who removed)
      -- the referendum was cancelled
      | none => set (s.setVoting who removed)
  | .delegating _ _ _ _ _ => pure ()

/-! ## Delegations -/

/-- Change the tally of an ongoing referendum. -/
def modifyTally (f : Tally → Tally) (refIndex : ℕ) (info : Map ℕ (ReferendumInfo H)) :
    Map ℕ (ReferendumInfo H) :=
  match info.lookup refIndex with
  | some (.ongoing status) =>
      info.insert refIndex (.ongoing { status with tally := f status.tally })
  | _ => info

/-- Change the tallies of the ongoing referenda in which a standard vote is cast. -/
def modifyTallies (f : Bool → Tally → Tally) (votes : Map ℕ AccountVote)
    (info : Map ℕ (ReferendumInfo H)) : Map ℕ (ReferendumInfo H) :=
  votes.entries.foldl
    (fun info e =>
      match e.2.asStandard with
      | some aye => modifyTally (f aye) e.1 info
      | none => info)
    info

/-- Change the tally of a referendum if it is ongoing. -/
def ReferendumInfo.mapTally (f : Tally → Tally) : ReferendumInfo H → ReferendumInfo H
  | .ongoing status => .ongoing { status with tally := f status.tally }
  | .finished approved endBlock => .finished approved endBlock

/-- What changing tallies does to the one of a referendum with this vote, if any. -/
def tallyChange (f : Bool → Tally → Tally) (vote : Option AccountVote) : Tally → Tally :=
  match vote.bind AccountVote.asStandard with
  | some aye => f aye
  | none => id

omit [DecidableEq A] [DecidableEq H] in
@[simp] theorem ReferendumInfo.mapTally_id : ReferendumInfo.mapTally (H := H) id = id := by
  funext info
  cases info <;> rfl

omit [DecidableEq A] [DecidableEq H] in
theorem lookup_modifyTally (f : Tally → Tally) (refIndex : ℕ) (info : Map ℕ (ReferendumInfo H))
    (i : ℕ) :
    (modifyTally f refIndex info).lookup i =
      if i = refIndex then (info.lookup i).map (ReferendumInfo.mapTally f) else info.lookup i := by
  unfold modifyTally
  by_cases hi : i = refIndex
  · subst hi
    rw [if_pos rfl]
    cases hinfo : info.lookup i with
    | none => simpa using hinfo
    | some entry =>
        cases entry with
        | ongoing status => simp [ReferendumInfo.mapTally]
        | finished approved endBlock => simpa [ReferendumInfo.mapTally] using hinfo
  · rw [if_neg hi]
    split
    · exact AList.lookup_insert_ne hi
    · rfl

omit [DecidableEq A] [DecidableEq H] in
/-- **What changing the tallies does to each referendum.** -/
theorem lookup_modifyTallies (f : Bool → Tally → Tally) (votes : Map ℕ AccountVote)
    (info : Map ℕ (ReferendumInfo H)) (i : ℕ) :
    (modifyTallies f votes info).lookup i =
      (info.lookup i).map (ReferendumInfo.mapTally (tallyChange f (votes.lookup i))) := by
  have hfold : ∀ (l : List (Sigma fun _ : ℕ => AccountVote)), l.NodupKeys →
      ∀ info : Map ℕ (ReferendumInfo H),
        (l.foldl (fun info e =>
          match e.2.asStandard with
          | some aye => modifyTally (f aye) e.1 info
          | none => info) info).lookup i =
        (info.lookup i).map (ReferendumInfo.mapTally (tallyChange f (l.dlookup i))) := by
    intro l
    induction l with
    | nil =>
        intro _ info
        simp [tallyChange]
    | cons e l ih =>
        intro hl info
        obtain ⟨k, vote⟩ := e
        obtain ⟨hk, hl⟩ := List.nodupKeys_cons.mp hl
        rw [List.foldl_cons, ih hl]
        by_cases hi : i = k
        · subst hi
          have hnone : l.dlookup i = none := List.dlookup_eq_none.mpr hk
          rw [hnone, List.dlookup_cons_eq]
          cases vote with
          | standard aye conviction balance =>
              simp [AccountVote.asStandard, lookup_modifyTally, tallyChange]
          | split aye nay => simp [AccountVote.asStandard, tallyChange]
        · rw [List.dlookup_cons_ne _ _ hi]
          cases vote with
          | standard aye conviction balance =>
              simp [AccountVote.asStandard, lookup_modifyTally, hi]
          | split aye nay => simp [AccountVote.asStandard]
  exact hfold votes.entries votes.nodupKeys info

def State.increaseUpstreamDelegation (s : State A H) (who : A) (amount : Delegations) :
    State A H :=
  match s.voting who with
  | .delegating balance target conviction delegations prior =>
      -- there is no second level of delegation
      s.setVoting who (.delegating balance target conviction (delegations + amount) prior)
  | .direct votes delegations prior =>
      { s.setVoting who (.direct votes (delegations + amount) prior) with
        referendumInfoOf :=
          modifyTallies (fun aye t => t.increase aye amount) votes s.referendumInfoOf }

def State.reduceUpstreamDelegation (s : State A H) (who : A) (amount : Delegations) :
    State A H :=
  match s.voting who with
  | .delegating balance target conviction delegations prior =>
      s.setVoting who (.delegating balance target conviction (delegations - amount) prior)
  | .direct votes delegations prior =>
      { s.setVoting who (.direct votes (delegations - amount) prior) with
        referendumInfoOf :=
          modifyTallies (fun aye t => t.reduce aye amount) votes s.referendumInfoOf }

/-- Delegate with what is kept of the account's voting so far. -/
def State.startDelegation (s : State A H) (who target : A) (conviction : Conviction)
    (balance : ℕ) (delegations : Delegations) (prior : PriorLock) : State A H :=
  ((s.increaseUpstreamDelegation target (conviction.votes balance)).extendLock who
    balance).setVoting who (.delegating balance target conviction delegations prior)

/-- Attempt to delegate `balance` times `conviction` of voting power from `who` to `target`. -/
def tryDelegate (who target : A) (conviction : Conviction) (balance : ℕ) :
    DemocracyM A H Unit := do
  Dispatch.ensure (who ≠ target) .Nonsense
  let s ← get
  Dispatch.ensure (balance ≤ s.freeBalance who) .InsufficientFunds
  match s.voting who with
  | .delegating oldBalance oldTarget oldConviction delegations prior =>
      -- remove any delegation votes to our current target
      let s := s.reduceUpstreamDelegation oldTarget (oldConviction.votes oldBalance)
      set (s.startDelegation who target conviction balance delegations prior)
  | .direct votes delegations prior => do
      -- here we just ensure that we're currently idling with no votes recorded
      Dispatch.ensure (votes.keys = []) .VotesExist
      set (s.startDelegation who target conviction balance delegations prior)

/-- Attempt to end the current delegation. -/
def tryUndelegate (who : A) : DemocracyM A H Unit := do
  let s ← get
  match s.voting who with
  | .delegating balance target conviction delegations prior =>
      let unlockAt := s.blockNumber + cfg.enactmentPeriod * conviction.lockPeriods
      let s := s.reduceUpstreamDelegation target (conviction.votes balance)
      set (s.setVoting who (.direct ∅ delegations (prior.accumulate unlockAt balance)))
  | .direct _ _ _ => throw .NotDelegating

/-- Rejig the lock on an account. -/
def State.updateLock (s : State A H) (who : A) : State A H :=
  let voting := (s.voting who).rejig s.blockNumber
  (s.setVoting who voting).setLock who voting.lockedBalance

end Setheum.Democracy
