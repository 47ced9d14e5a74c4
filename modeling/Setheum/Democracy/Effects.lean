import Setheum.Democracy.Referenda
import Mathlib.Logic.Relation

/-!
# What can happen to democracy

Every act is a sequence of effects, each on one part of the storages: the deposits with the queue
of proposals and the preimages, the referenda, or the votes and delegations with their locks. A
call that fails has no effect, as all its checks come before its first write.

* `Call.failsClean` — a call that fails changes nothing.
* `act_effects` — the effects of an act.
* `act_invariant` — what every effect preserves, every act does.
* `DepositEffect.frame` — deposits do not touch the other two parts.
-/

set_option autoImplicit false

namespace Setheum.Democracy

open StorageMap

variable {A H : Type} [DecidableEq A] [DecidableEq H] (cfg : Config A H)

/-- An effect on deposits, the queue of proposals and preimages, or on what nothing else reads. -/
inductive DepositEffect (s : State A H) : State A H → Prop
  | proposed (who : A) (h : H) (c : CurrencyId) (value : ℕ) (r : Reserves A)
      (hr : Reserves.reserve cfg.rules who value (s.tokens c) = .ok r) :
      DepositEffect s { s.setTokens c r with
        publicPropCount := s.publicPropCount + 1
        depositOf := s.depositOf.insert s.publicPropCount ⟨[who], c, value⟩
        publicProps := s.publicProps ++ [(s.publicPropCount, h, who)] }
  | seconded (who : A) (proposal : ℕ) (c : CurrencyId) (deposit : Deposit A) (r : Reserves A)
      (hdeposit : s.depositOf.lookup proposal = some deposit)
      (hr : Reserves.reserve cfg.rules who deposit.amount (s.tokens c) = .ok r) :
      DepositEffect s { s.setTokens c r with
        depositOf := s.depositOf.insert proposal
          ⟨deposit.depositors ++ [who], c, deposit.amount⟩ }
  | tabled (winnerIndex propIndex : ℕ) (h : H) (proposer : A)
      (hwinner : maxByKey (fun p => (s.backingFor p.1).getD 0) s.publicProps
        = some (winnerIndex, (propIndex, h, proposer))) :
      DepositEffect s (s.table winnerIndex propIndex)
  | cancelled (propIndex : ℕ) :
      DepositEffect s ({ s with
        publicProps := s.publicProps.filter fun p => p.1 ≠ propIndex }.slashProposal cfg
          propIndex)
  | blacklisted (h : H) : DepositEffect s (s.removeQueued cfg h)
  | cleared : DepositEffect s { s with publicProps := [] }
  | noted (who : A) (c : CurrencyId) (data : List Byte) (r : Reserves A)
      (hfresh : cfg.hashing data ∉ s.preimages)
      (hr : Reserves.reserve cfg.rules who (data.length * cfg.preimageByteDeposit) (s.tokens c)
        = .ok r) :
      DepositEffect s { s.setTokens c r with
        preimages := s.preimages.insert (cfg.hashing data)
          (.available ⟨data, who, c, data.length * cfg.preimageByteDeposit, s.blockNumber, none⟩) }
  | notedImminent (who : A) (c : CurrencyId) (data : List Byte) (expiry : ℕ)
      (hmissing : s.preimages.lookup (cfg.hashing data) = some (.missing expiry)) :
      DepositEffect s { s with
        preimages := s.preimages.insert (cfg.hashing data)
          (.available ⟨data, who, c, 0, s.blockNumber, some expiry⟩) }
  | reaped (who : A) (h : H) (preimage : Preimage A)
      (hpreimage : s.availablePreimage h = some preimage) :
      DepositEffect s { s.setTokens preimage.currency
          ((Reserves.repatriateFree cfg.rules preimage.provider who preimage.deposit
            (s.tokens preimage.currency)).toOption.getD (s.tokens preimage.currency)) with
        preimages := s.preimages.erase h }
  | givenBack (h : H) (preimage : Preimage A)
      (hpreimage : s.availablePreimage h = some preimage) :
      DepositEffect s (s.giveBack preimage h)
  | slashed (h : H) (preimage : Preimage A)
      (hpreimage : s.availablePreimage h = some preimage) :
      DepositEffect s (s.slashPreimage cfg preimage h)
  | forgotten (h : H) (hnone : s.availablePreimage h = none) :
      DepositEffect s { s with preimages := s.preimages.erase h }
  | needed (h : H) (block : ℕ) : DepositEffect s (s.need h block)
  | elsewhere (o : Outside A) : DepositEffect s (s.outside o)
  | noticed (lastTabledWasExternal : Bool) (nextExternal : Option (H × VoteThreshold))
      (blacklist : Map H (ℕ × List A)) (cancellations : Map H Bool) :
      DepositEffect s { s with
        lastTabledWasExternal := lastTabledWasExternal
        nextExternal := nextExternal
        blacklist := blacklist
        cancellations := cancellations }

/-- An effect on the referenda. -/
inductive ReferendumEffect (s : State A H) : State A H → Prop
  | injected (endBlock : ℕ) (h : H) (threshold : VoteThreshold) (delay : ℕ) :
      ReferendumEffect s (s.injectReferendum endBlock h threshold delay)
  | cancelled (refIndex : ℕ) : ReferendumEffect s (s.internalCancelReferendum refIndex)
  | finished (refIndex : ℕ) (approved : Bool) (now : ℕ) :
      ReferendumEffect s (s.finish refIndex approved now)

/-- The tally without an earlier vote of the account. -/
def Retracted (votes : Map ℕ AccountVote) (delegations : Delegations) (refIndex : ℕ)
    (tally tally' : Tally) : Prop :=
  match votes.lookup refIndex with
  | some old => ∃ t, tally.remove old = some t ∧ tally' = t.reduceStandard old delegations
  | none => tally' = tally

/-- An effect on votes and locks. -/
inductive VotingEffect (s : State A H) : State A H → Prop
  | voted (who : A) (refIndex : ℕ) (vote : AccountVote) (status : ReferendumStatus H)
      (votes : Map ℕ AccountVote) (delegations : Delegations) (prior : PriorLock) (tally : Tally)
      (hstatus : s.referendumInfoOf.lookup refIndex = some (.ongoing status))
      (hvoting : s.voting who = .direct votes delegations prior)
      (htally : Retracted votes delegations refIndex status.tally tally) :
      VotingEffect s (((s.setVoting who
        (.direct (votes.insert refIndex vote) delegations prior)).extendLock who
          vote.balance).setTally refIndex status
            ((tally.add vote).increaseStandard vote delegations))
  | unvoted (who : A) (refIndex : ℕ) (old : AccountVote) (status : ReferendumStatus H)
      (votes : Map ℕ AccountVote) (delegations : Delegations) (prior : PriorLock) (tally : Tally)
      (hstatus : s.referendumInfoOf.lookup refIndex = some (.ongoing status))
      (hvoting : s.voting who = .direct votes delegations prior)
      (hold : votes.lookup refIndex = some old)
      (htally : status.tally.remove old = some tally) :
      VotingEffect s ((s.setVoting who
        (.direct (votes.erase refIndex) delegations prior)).setTally refIndex status
          (tally.reduceStandard old delegations))
  | settled (who : A) (refIndex : ℕ) (votes : Map ℕ AccountVote) (delegations : Delegations)
      (prior prior' : PriorLock)
      (hover : ∀ status, s.referendumInfoOf.lookup refIndex ≠ some (.ongoing status))
      (hvoting : s.voting who = .direct votes delegations prior)
      (hprior : prior' = prior ∨ ∃ expiry amount, prior' = prior.accumulate expiry amount) :
      VotingEffect s (s.setVoting who (.direct (votes.erase refIndex) delegations prior'))
  | unlocked (who : A) : VotingEffect s (s.updateLock who)

/-- An account delegates, delegates anew, or takes its delegation back. -/
inductive DelegationEffect (who : A) (s : State A H) : State A H → Prop
  | delegated (target : A) (conviction : Conviction) (balance : ℕ)
      (votes : Map ℕ AccountVote) (delegations : Delegations) (prior : PriorLock)
      (hne : who ≠ target) (hvoting : s.voting who = .direct votes delegations prior)
      (hempty : votes.keys = []) :
      DelegationEffect who s (s.startDelegation who target conviction balance delegations prior)
  | redelegated (target : A) (conviction : Conviction) (balance oldBalance : ℕ)
      (oldTarget : A) (oldConviction : Conviction) (delegations : Delegations)
      (prior : PriorLock) (hne : who ≠ target)
      (hvoting : s.voting who = .delegating oldBalance oldTarget oldConviction delegations prior) :
      DelegationEffect who s ((s.reduceUpstreamDelegation oldTarget
        (oldConviction.votes oldBalance)).startDelegation who target conviction balance
          delegations prior)
  | undelegated (target : A) (balance : ℕ) (conviction : Conviction)
      (delegations : Delegations) (prior : PriorLock)
      (hvoting : s.voting who = .delegating balance target conviction delegations prior) :
      DelegationEffect who s ((s.reduceUpstreamDelegation target
        (conviction.votes balance)).setVoting who
          (.direct ∅ delegations (prior.accumulate
            (s.blockNumber + cfg.enactmentPeriod * conviction.lockPeriods) balance)))

/-- An effect on one of the parts; which accounts may change their delegations is a parameter. -/
inductive Effect (delegators : A → Prop) (s s' : State A H) : Prop
  | deposit (h : DepositEffect cfg s s')
  | referendum (h : ReferendumEffect s s')
  | voting (h : VotingEffect s s')
  | delegation (who : A) (hwho : delegators who) (h : DelegationEffect cfg who s s')

/-- Any number of effects. -/
abbrev Effects (delegators : A → Prop) : State A H → State A H → Prop :=
  Relation.ReflTransGen (Effect cfg delegators)

/-- Whose delegations an act can change: its caller's, if it is a call about them. -/
def Act.delegator : Act A H → A → Prop
  | .call (.delegate who _ _ _), a => a = who
  | .call (.undelegate who), a => a = who
  | _, _ => False

/-! ## Calls that fail -/

section FailsClean

open Dispatch

variable {cfg}

omit [DecidableEq A] [DecidableEq H] in
theorem silent_retract (votes : Map ℕ AccountVote) (delegations : Delegations) (refIndex : ℕ)
    (tally : Tally) : Silent (retract cfg votes delegations refIndex tally) := by
  intro s
  unfold retract
  split
  · exact preserves_bind preserves_okOr fun t => preserves_pure _
  · exact preserves_bind preserves_ensure fun _ => preserves_pure _

omit [DecidableEq A] [DecidableEq H] in
theorem silent_referendumStatus (refIndex : ℕ) :
    Silent (referendumStatus refIndex : DemocracyM A H _) := by
  intro s
  unfold referendumStatus
  refine preserves_bind preserves_get fun t => ?_
  split
  · exact preserves_pure _
  · exact preserves_throw _

omit [DecidableEq A] in
theorem silent_ensureNotBlacklisted (s : State A H) (h : H) :
    Silent (ensureNotBlacklisted s h) := by
  intro t
  unfold ensureNotBlacklisted
  split
  · exact preserves_ensure
  · exact preserves_pure _

omit [DecidableEq H] in
theorem failsClean_tryVote (who : A) (refIndex : ℕ) (vote : AccountVote) :
    FailsClean (tryVote cfg who refIndex vote : DemocracyM A H Unit) := by
  refine failsClean_bind (silent_referendumStatus refIndex) fun status => ?_
  refine failsClean_bind silent_get fun s => ?_
  refine failsClean_bind silent_ensure fun _ => ?_
  split
  · exact failsClean_bind (silent_retract _ _ _ _) fun tally => failsClean_set _
  · exact failsClean_throw _

omit [DecidableEq H] in
theorem failsClean_tryRemoveVote (who : A) (refIndex : ℕ) (scope : UnvoteScope) :
    FailsClean (tryRemoveVote cfg who refIndex scope : DemocracyM A H Unit) := by
  refine failsClean_bind silent_get fun s => ?_
  split
  · refine failsClean_bind silent_okOr fun old => ?_
    split
    · refine failsClean_bind silent_ensure fun _ => ?_
      exact failsClean_bind silent_okOr fun tally => failsClean_set _
    · split
      · dsimp only
        split
        · exact failsClean_bind silent_ensure fun _ => failsClean_set _
        · exact failsClean_set _
      · exact failsClean_set _
    · exact failsClean_set _
  · exact (neverFails_pure ()).failsClean

omit [DecidableEq H] in
theorem failsClean_tryDelegate (who target : A) (conviction : Conviction) (balance : ℕ) :
    FailsClean (tryDelegate who target conviction balance : DemocracyM A H Unit) := by
  refine failsClean_bind silent_ensure fun _ => ?_
  refine failsClean_bind silent_get fun s => ?_
  refine failsClean_bind silent_ensure fun _ => ?_
  split
  · exact failsClean_set _
  · exact failsClean_bind silent_ensure fun _ => failsClean_set _

omit [DecidableEq H] in
theorem failsClean_tryUndelegate (who : A) :
    FailsClean (tryUndelegate cfg who : DemocracyM A H Unit) := by
  refine failsClean_bind silent_get fun s => ?_
  split
  · exact failsClean_set _
  · exact failsClean_throw _

/-- **A call that fails changes nothing.** -/
theorem Call.failsClean (cfg : Config A H) (c : Call A H) : FailsClean (c.call cfg) := by
  cases c with
  | propose who h c value =>
      refine failsClean_bind silent_ensure fun _ => ?_
      refine failsClean_bind silent_get fun s => ?_
      refine failsClean_bind silent_okOr fun minimum => ?_
      refine failsClean_bind silent_ensure fun _ => ?_
      refine failsClean_bind silent_ensure fun _ => ?_
      refine failsClean_bind (silent_ensureNotBlacklisted s h) fun _ => ?_
      exact failsClean_bind_neverFails failsClean_onComponent fun _ => neverFails_modify _
  | second who proposal c bound =>
      refine failsClean_bind silent_ensure fun _ => ?_
      refine failsClean_bind silent_get fun s => ?_
      refine failsClean_bind silent_okOr fun deposit => ?_
      refine failsClean_bind silent_ensure fun _ => ?_
      exact failsClean_bind_neverFails failsClean_onComponent fun _ => neverFails_modify _
  | vote who refIndex accountVote => exact failsClean_tryVote who refIndex accountVote
  | emergencyCancel refIndex =>
      refine failsClean_bind (silent_referendumStatus refIndex) fun status => ?_
      refine failsClean_bind silent_get fun s => ?_
      exact failsClean_bind silent_ensure fun _ => failsClean_set _
  | externalPropose h =>
      refine failsClean_bind silent_get fun s => ?_
      refine failsClean_bind silent_ensure fun _ => ?_
      exact failsClean_bind (silent_ensureNotBlacklisted s h) fun _ => failsClean_set _
  | externalProposeMajority h => exact failsClean_modify _
  | externalProposeDefault h => exact failsClean_modify _
  | fastTrack origin h votingPeriod delay =>
      refine failsClean_bind silent_ensure fun _ => ?_
      refine failsClean_bind silent_ensure fun _ => ?_
      refine failsClean_bind silent_get fun s => ?_
      refine failsClean_bind silent_okOr fun next => ?_
      refine failsClean_bind silent_ensure fun _ => ?_
      exact failsClean_bind silent_ensure fun _ => failsClean_set _
  | vetoExternal who h =>
      refine failsClean_bind silent_get fun s => ?_
      refine failsClean_bind silent_okOr fun next => ?_
      refine failsClean_bind silent_ensure fun _ => ?_
      exact failsClean_bind silent_ensure fun _ => failsClean_set _
  | cancelReferendum refIndex => exact failsClean_modify _
  | delegate who target conviction balance =>
      exact failsClean_tryDelegate who target conviction balance
  | undelegate who => exact failsClean_tryUndelegate who
  | clearPublicProposals => exact failsClean_modify _
  | notePreimage who c data =>
      refine failsClean_bind silent_get fun s => ?_
      refine failsClean_bind silent_ensure fun _ => ?_
      refine failsClean_bind silent_ensure fun _ => ?_
      exact failsClean_bind_neverFails failsClean_onComponent fun _ => neverFails_modify _
  | noteImminentPreimage who c data =>
      refine failsClean_bind silent_get fun s => ?_
      refine failsClean_bind silent_okOr fun status => ?_
      refine failsClean_bind silent_okOr fun expiry => ?_
      exact failsClean_bind silent_ensure fun _ => failsClean_set _
  | reapPreimage who h bound =>
      refine failsClean_bind silent_get fun s => ?_
      refine failsClean_bind silent_okOr fun preimage => ?_
      refine failsClean_bind silent_ensure fun _ => ?_
      refine failsClean_bind silent_ensure fun _ => ?_
      exact failsClean_bind silent_ensure fun _ => failsClean_set _
  | unlock target => exact failsClean_modify _
  | removeVote who refIndex => exact failsClean_tryRemoveVote who refIndex .any
  | removeOtherVote who target refIndex => exact failsClean_tryRemoveVote target refIndex _
  | blacklist h maybeRefIndex => exact failsClean_modify _
  | cancelProposal propIndex => exact failsClean_modify _

end FailsClean

/-! ## The effects of every act -/

section Effects

variable {cfg} {delegators : A → Prop} {s s' : State A H} {u : Unit}

theorem Effects.of_deposit (h : DepositEffect cfg s s') : Effects cfg delegators s s' :=
  .single (.deposit h)

theorem Effects.of_referendum (h : ReferendumEffect s s') : Effects cfg delegators s s' :=
  .single (.referendum h)

theorem Effects.of_voting (h : VotingEffect s s') : Effects cfg delegators s s' :=
  .single (.voting h)

omit [DecidableEq H] in
theorem reserve_ok {c : CurrencyId} {who : A} {amount : ℕ}
    (h : (reserve cfg c who amount).run s = .ok u s') :
    ∃ r, Reserves.reserve cfg.rules who amount (s.tokens c) = .ok r ∧ s' = s.setTokens c r := by
  obtain ⟨r, hr, rfl⟩ := Dispatch.run_onComponent_ok.mp h
  exact ⟨r, hr, rfl⟩

omit [DecidableEq A] [DecidableEq H] in
theorem referendumStatus_ok {refIndex : ℕ} {status : ReferendumStatus H}
    (h : (referendumStatus refIndex).run s = .ok status s') :
    s.referendumInfoOf.lookup refIndex = some (.ongoing status) ∧ s' = s := by
  simp only [referendumStatus, Dispatch.run_bind_ok, Dispatch.run_get_ok] at h
  obtain ⟨_, _, ⟨rfl, rfl⟩, h⟩ := h
  split at h
  · rename_i status' hstatus
    obtain ⟨rfl, rfl⟩ := Dispatch.run_pure_ok.mp h
    exact ⟨hstatus, rfl⟩
  · exact absurd (Dispatch.run_throw_ok.mp h) not_false

omit [DecidableEq A] [DecidableEq H] in
theorem retract_ok {votes : Map ℕ AccountVote} {delegations : Delegations} {refIndex : ℕ}
    {tally tally' : Tally}
    (h : (retract cfg votes delegations refIndex tally).run s = .ok tally' s') :
    Retracted votes delegations refIndex tally tally' ∧ s' = s := by
  cases hold : votes.lookup refIndex with
  | some old =>
      simp only [retract, hold, Dispatch.run_bind_ok, Dispatch.run_okOr_ok,
        Dispatch.run_pure_ok] at h
      obtain ⟨t, _, ⟨ht, rfl⟩, rfl, rfl⟩ := h
      refine ⟨?_, rfl⟩
      simp only [Retracted, hold]
      exact ⟨t, ht, rfl⟩
  | none =>
      simp only [retract, hold, Dispatch.run_bind_ok, Dispatch.run_ensure_ok,
        Dispatch.run_pure_ok] at h
      obtain ⟨_, _, ⟨-, rfl⟩, rfl, rfl⟩ := h
      refine ⟨?_, rfl⟩
      simp only [Retracted, hold]

theorem propose_ok {who : A} {h : H} {c : CurrencyId} {value : ℕ}
    (hrun : (propose cfg who h c value).run s = .ok u s') :
    ∃ minimum r, s.minimumDeposit cfg c = some minimum ∧ minimum ≤ value ∧
      s.publicProps.length < cfg.maxProposals ∧
      Reserves.reserve cfg.rules who value (s.tokens c) = .ok r ∧
      s' = { s.setTokens c r with
        publicPropCount := s.publicPropCount + 1
        depositOf := s.depositOf.insert s.publicPropCount ⟨[who], c, value⟩
        publicProps := s.publicProps ++ [(s.publicPropCount, h, who)] } := by
  simp only [propose, Dispatch.run_bind_ok, Dispatch.run_ensure_ok, Dispatch.run_get_ok,
    Dispatch.run_okOr_ok] at hrun
  obtain ⟨_, _, ⟨-, rfl⟩, _, _, ⟨rfl, rfl⟩, minimum, _, ⟨hminimum, rfl⟩, _, _, ⟨hvalue, rfl⟩, _, _,
    ⟨hlength, rfl⟩, _, s₁, hblack, hrun⟩ := hrun
  have hs₁ : s₁ = s := (silent_ensureNotBlacklisted s h).commit_eq s ▸
    (Dispatch.commit_of_ok hblack).symm
  subst hs₁
  obtain ⟨_, _, hreserve, hrun⟩ := hrun
  obtain ⟨r, hr, rfl⟩ := reserve_ok hreserve
  exact ⟨minimum, r, hminimum, hvalue, hlength, hr, (Dispatch.run_modify_ok.mp hrun).symm⟩

theorem propose_effects {who : A} {h : H} {c : CurrencyId} {value : ℕ}
    (hrun : (propose cfg who h c value).run s = .ok u s') : Effects cfg delegators s s' := by
  obtain ⟨-, r, -, -, -, hr, rfl⟩ := propose_ok hrun
  exact Effects.of_deposit (.proposed who h c value r hr)

omit [DecidableEq H] in
theorem second_ok {who : A} {proposal : ℕ} {c : CurrencyId} {bound : ℕ}
    (hrun : (second cfg who proposal c bound).run s = .ok u s') :
    ∃ deposit r, s.depositOf.lookup proposal = some deposit ∧
      Reserves.reserve cfg.rules who deposit.amount (s.tokens c) = .ok r ∧
      s' = { s.setTokens c r with
        depositOf := s.depositOf.insert proposal
          ⟨deposit.depositors ++ [who], c, deposit.amount⟩ } := by
  simp only [second, Dispatch.run_bind_ok, Dispatch.run_ensure_ok, Dispatch.run_get_ok,
    Dispatch.run_okOr_ok, Dispatch.run_modify_ok] at hrun
  obtain ⟨_, _, ⟨-, rfl⟩, _, _, ⟨rfl, rfl⟩, deposit, _, ⟨hdeposit, rfl⟩, _, _, ⟨-, rfl⟩, _, _,
    hreserve, rfl⟩ := hrun
  obtain ⟨r, hr, rfl⟩ := reserve_ok hreserve
  exact ⟨deposit, r, hdeposit, hr, rfl⟩

theorem second_effects {who : A} {proposal : ℕ} {c : CurrencyId} {bound : ℕ}
    (hrun : (second cfg who proposal c bound).run s = .ok u s') : Effects cfg delegators s s' := by
  obtain ⟨deposit, r, hdeposit, hr, rfl⟩ := second_ok hrun
  exact Effects.of_deposit (.seconded who proposal c deposit r hdeposit hr)

theorem tryVote_effects {who : A} {refIndex : ℕ} {vote : AccountVote}
    (hrun : (tryVote cfg who refIndex vote).run s = .ok u s') : Effects cfg delegators s s' := by
  simp only [tryVote, Dispatch.run_bind_ok, Dispatch.run_ensure_ok, Dispatch.run_get_ok] at hrun
  obtain ⟨status, _, hstatus, _, _, ⟨rfl, rfl⟩, _, _, ⟨-, rfl⟩, hrun⟩ := hrun
  obtain ⟨hstatus, rfl⟩ := referendumStatus_ok hstatus
  split at hrun
  · rename_i votes delegations prior hvoting
    simp only [Dispatch.run_bind_ok, Dispatch.run_set_ok] at hrun
    obtain ⟨tally, _, hretract, rfl⟩ := hrun
    obtain ⟨htally, rfl⟩ := retract_ok hretract
    exact Effects.of_voting
      (.voted who refIndex vote status votes delegations prior tally hstatus hvoting htally)
  · exact absurd (Dispatch.run_throw_ok.mp hrun) not_false

theorem tryRemoveVote_effects {who : A} {refIndex : ℕ} {scope : UnvoteScope}
    (hrun : (tryRemoveVote cfg who refIndex scope).run s = .ok u s') :
    Effects cfg delegators s s' := by
  simp only [tryRemoveVote, Dispatch.run_bind_ok, Dispatch.run_get_ok] at hrun
  obtain ⟨_, _, ⟨rfl, rfl⟩, hrun⟩ := hrun
  split at hrun
  · rename_i votes delegations prior hvoting
    simp only [Dispatch.run_bind_ok, Dispatch.run_okOr_ok] at hrun
    obtain ⟨old, _, ⟨hold, rfl⟩, hrun⟩ := hrun
    split at hrun
    · rename_i status hstatus
      simp only [Dispatch.run_bind_ok, Dispatch.run_ensure_ok, Dispatch.run_okOr_ok,
        Dispatch.run_set_ok] at hrun
      obtain ⟨_, _, ⟨-, rfl⟩, tally, _, ⟨htally, rfl⟩, rfl⟩ := hrun
      exact Effects.of_voting
        (.unvoted who refIndex old status votes delegations prior tally hstatus hvoting hold htally)
    · rename_i approved endBlock hfinished
      have hover : ∀ status : ReferendumStatus H,
          s.referendumInfoOf.lookup refIndex ≠ some (.ongoing status) := by
        intro status hongoing
        rw [hongoing] at hfinished
        cases hfinished
      split at hrun
      · split at hrun
        · simp only [Dispatch.run_bind_ok, Dispatch.run_ensure_ok, Dispatch.run_set_ok] at hrun
          obtain ⟨_, _, ⟨-, rfl⟩, rfl⟩ := hrun
          exact Effects.of_voting
            (.settled who refIndex votes delegations prior _ hover hvoting (.inr ⟨_, _, rfl⟩))
        · rw [Dispatch.run_set_ok] at hrun
          exact hrun ▸ Effects.of_voting
            (.settled who refIndex votes delegations prior prior hover hvoting (.inl rfl))
      · rw [Dispatch.run_set_ok] at hrun
        exact hrun ▸ Effects.of_voting
          (.settled who refIndex votes delegations prior prior hover hvoting (.inl rfl))
    · rename_i hcancelled
      have hover : ∀ status : ReferendumStatus H,
          s.referendumInfoOf.lookup refIndex ≠ some (.ongoing status) := by
        intro status hongoing
        rw [hongoing] at hcancelled
        cases hcancelled
      rw [Dispatch.run_set_ok] at hrun
      exact hrun ▸ Effects.of_voting
        (.settled who refIndex votes delegations prior prior hover hvoting (.inl rfl))
  · obtain ⟨-, rfl⟩ := Dispatch.run_pure_ok.mp hrun
    exact Relation.ReflTransGen.refl

omit [DecidableEq H] in
/-- A delegation takes back the one before it, or starts from an account without votes. -/
theorem tryDelegate_spec {who target : A} {conviction : Conviction} {balance : ℕ}
    (hrun : (tryDelegate who target conviction balance).run s = .ok u s') :
    who ≠ target ∧
      ((∃ oldBalance oldTarget oldConviction delegations prior,
          s.voting who = .delegating oldBalance oldTarget oldConviction delegations prior ∧
          s' = (s.reduceUpstreamDelegation oldTarget
            (oldConviction.votes oldBalance)).startDelegation who target conviction balance
              delegations prior) ∨
        ∃ votes delegations prior, s.voting who = .direct votes delegations prior ∧
          votes.keys = [] ∧
          s' = s.startDelegation who target conviction balance delegations prior) := by
  simp only [tryDelegate, Dispatch.run_bind_ok, Dispatch.run_ensure_ok,
    Dispatch.run_get_ok] at hrun
  obtain ⟨_, _, ⟨hne, rfl⟩, _, _, ⟨rfl, rfl⟩, _, _, ⟨-, rfl⟩, hrun⟩ := hrun
  refine ⟨hne, ?_⟩
  split at hrun
  · rename_i oldBalance oldTarget oldConviction delegations prior hvoting
    rw [Dispatch.run_set_ok] at hrun
    exact .inl ⟨oldBalance, oldTarget, oldConviction, delegations, prior, hvoting, hrun.symm⟩
  · rename_i votes delegations prior hvoting
    simp only [Dispatch.run_bind_ok, Dispatch.run_ensure_ok, Dispatch.run_set_ok] at hrun
    obtain ⟨_, _, ⟨hempty, rfl⟩, rfl⟩ := hrun
    exact .inr ⟨votes, delegations, prior, hvoting, hempty, rfl⟩

theorem tryDelegate_effects {who target : A} {conviction : Conviction} {balance : ℕ}
    (hwho : delegators who)
    (hrun : (tryDelegate who target conviction balance).run s = .ok u s') :
    Effects cfg delegators s s' := by
  obtain ⟨hne, ⟨oldBalance, oldTarget, oldConviction, delegations, prior, hvoting, rfl⟩ |
    ⟨votes, delegations, prior, hvoting, hempty, rfl⟩⟩ := tryDelegate_spec hrun
  · exact .single (.delegation who hwho (.redelegated target conviction balance oldBalance
      oldTarget oldConviction delegations prior hne hvoting))
  · exact .single (.delegation who hwho
      (.delegated target conviction balance votes delegations prior hne hvoting hempty))

omit [DecidableEq H] in
/-- The end of a delegation leaves a lock for its lock periods. -/
theorem tryUndelegate_spec {who : A} (hrun : (tryUndelegate cfg who).run s = .ok u s') :
    ∃ balance target conviction delegations prior,
      s.voting who = .delegating balance target conviction delegations prior ∧
      s' = (s.reduceUpstreamDelegation target (conviction.votes balance)).setVoting who
        (.direct ∅ delegations (prior.accumulate
          (s.blockNumber + cfg.enactmentPeriod * conviction.lockPeriods) balance)) := by
  simp only [tryUndelegate, Dispatch.run_bind_ok, Dispatch.run_get_ok] at hrun
  obtain ⟨_, _, ⟨rfl, rfl⟩, hrun⟩ := hrun
  split at hrun
  · rename_i balance target conviction delegations prior hvoting
    rw [Dispatch.run_set_ok] at hrun
    exact ⟨balance, target, conviction, delegations, prior, hvoting, hrun.symm⟩
  · exact absurd (Dispatch.run_throw_ok.mp hrun) not_false

theorem tryUndelegate_effects {who : A} (hwho : delegators who)
    (hrun : (tryUndelegate cfg who).run s = .ok u s') : Effects cfg delegators s s' := by
  obtain ⟨balance, target, conviction, delegations, prior, hvoting, rfl⟩ := tryUndelegate_spec hrun
  exact .single (.delegation who hwho
    (.undelegated target balance conviction delegations prior hvoting))

/-- Effects on what nothing else reads. -/
theorem noticed_effects (s : State A H) (last : Bool) (next : Option (H × VoteThreshold))
    (black : Map H (ℕ × List A)) (cancellations : Map H Bool) :
    Effects cfg delegators s { s with
      lastTabledWasExternal := last
      nextExternal := next
      blacklist := black
      cancellations := cancellations } :=
  Effects.of_deposit (.noticed last next black cancellations)

theorem externalPropose_effects {h : H} (hrun : (externalPropose h).run s = .ok u s') :
    Effects cfg delegators s s' := by
  simp only [externalPropose, Dispatch.run_bind_ok, Dispatch.run_get_ok,
    Dispatch.run_ensure_ok] at hrun
  obtain ⟨_, _, ⟨rfl, rfl⟩, _, _, ⟨-, rfl⟩, _, s₁, hblack, hrun⟩ := hrun
  have hs₁ : s₁ = s := (silent_ensureNotBlacklisted s h).commit_eq s ▸
    (Dispatch.commit_of_ok hblack).symm
  rw [Dispatch.run_set_ok] at hrun
  exact hrun ▸ noticed_effects s _ _ _ _

theorem fastTrack_effects {origin : FastTrackOrigin} {h : H} {votingPeriod delay : ℕ}
    (hrun : (fastTrack cfg origin h votingPeriod delay).run s = .ok u s') :
    Effects cfg delegators s s' := by
  simp only [fastTrack, Dispatch.run_bind_ok, Dispatch.run_ensure_ok, Dispatch.run_get_ok,
    Dispatch.run_okOr_ok, Dispatch.run_set_ok] at hrun
  obtain ⟨_, _, ⟨-, rfl⟩, _, _, ⟨-, rfl⟩, _, _, ⟨rfl, rfl⟩, ⟨e, threshold⟩, _, ⟨-, rfl⟩, _, _,
    ⟨-, rfl⟩, _, _, ⟨-, rfl⟩, rfl⟩ := hrun
  exact (noticed_effects s _ none _ _).trans
    (Effects.of_referendum (.injected _ h threshold delay))

theorem vetoExternal_effects {who : A} {h : H}
    (hrun : (vetoExternal cfg who h).run s = .ok u s') : Effects cfg delegators s s' := by
  simp only [vetoExternal, Dispatch.run_bind_ok, Dispatch.run_ensure_ok, Dispatch.run_get_ok,
    Dispatch.run_okOr_ok, Dispatch.run_set_ok] at hrun
  obtain ⟨_, _, ⟨rfl, rfl⟩, _, _, ⟨-, rfl⟩, _, _, ⟨-, rfl⟩, _, _, ⟨-, rfl⟩, rfl⟩ := hrun
  exact noticed_effects s _ _ _ _

theorem emergencyCancel_effects {refIndex : ℕ}
    (hrun : (emergencyCancel refIndex).run s = .ok u s') : Effects cfg delegators s s' := by
  simp only [emergencyCancel, Dispatch.run_bind_ok, Dispatch.run_ensure_ok, Dispatch.run_get_ok,
    Dispatch.run_set_ok] at hrun
  obtain ⟨status, t, hstatus, _, _, ⟨rfl, rfl⟩, _, _, ⟨-, rfl⟩, rfl⟩ := hrun
  obtain ⟨-, ht⟩ := referendumStatus_ok hstatus
  subst ht
  exact (noticed_effects _ _ _ _ _).trans (Effects.of_referendum (.cancelled refIndex))

theorem cancelMatching_effects (s : State A H) (h : H) (refIndex : ℕ) :
    Effects cfg delegators s (s.cancelMatching h refIndex) := by
  unfold State.cancelMatching
  split
  · split
    · exact Effects.of_referendum (.cancelled refIndex)
    · exact Relation.ReflTransGen.refl
  · exact Relation.ReflTransGen.refl

theorem blacklist_effects (s : State A H) (h : H) (maybeRefIndex : Option ℕ) :
    Effects cfg delegators s (Dispatch.commit (blacklist cfg h maybeRefIndex) s) := by
  have hlisted : Effects cfg delegators s
      { s with blacklist := s.blacklist.insert h (cfg.maxBlockNumber, []) } :=
    noticed_effects s _ _ _ _
  have hcleared : ∀ t : State A H, Effects cfg delegators t
      (if t.nextExternal.map Prod.fst = some h then { t with nextExternal := none } else t) := by
    intro t
    split
    · exact noticed_effects t _ _ _ _
    · exact Relation.ReflTransGen.refl
  have hcancelled : ∀ t : State A H,
      Effects cfg delegators t (maybeRefIndex.elim t (t.cancelMatching h)) := by
    intro t
    cases maybeRefIndex with
    | none => exact Relation.ReflTransGen.refl
    | some refIndex => exact cancelMatching_effects t h refIndex
  have hqueue := hlisted.trans (Effects.of_deposit (.blacklisted h))
  exact hqueue.trans ((hcleared _).trans (hcancelled _))

theorem notePreimage_ok {who : A} {c : CurrencyId} {data : List Byte}
    (hrun : (notePreimage cfg who c data).run s = .ok u s') :
    cfg.hashing data ∉ s.preimages ∧
      ∃ r, Reserves.reserve cfg.rules who (data.length * cfg.preimageByteDeposit) (s.tokens c)
        = .ok r ∧
      s' = { s.setTokens c r with
        preimages := s.preimages.insert (cfg.hashing data) (.available
          ⟨data, who, c, data.length * cfg.preimageByteDeposit, s.blockNumber, none⟩) } := by
  simp only [notePreimage, Dispatch.run_bind_ok, Dispatch.run_ensure_ok, Dispatch.run_get_ok,
    Dispatch.run_modify_ok] at hrun
  obtain ⟨_, _, ⟨rfl, rfl⟩, _, _, ⟨hfresh, rfl⟩, _, _, ⟨-, rfl⟩, _, _, hreserve, rfl⟩ := hrun
  obtain ⟨r, hr, rfl⟩ := reserve_ok hreserve
  exact ⟨hfresh, r, hr, rfl⟩

theorem notePreimage_effects {who : A} {c : CurrencyId} {data : List Byte}
    (hrun : (notePreimage cfg who c data).run s = .ok u s') : Effects cfg delegators s s' := by
  obtain ⟨hfresh, r, hr, rfl⟩ := notePreimage_ok hrun
  exact Effects.of_deposit (.noted who c data r hfresh hr)

omit [DecidableEq A] in
theorem noteImminentPreimage_ok {who : A} {c : CurrencyId} {data : List Byte}
    (hrun : (noteImminentPreimage cfg who c data).run s = .ok u s') :
    ∃ expiry, s.preimages.lookup (cfg.hashing data) = some (.missing expiry) ∧
      s' = { s with
        preimages := s.preimages.insert (cfg.hashing data)
          (.available ⟨data, who, c, 0, s.blockNumber, some expiry⟩) } := by
  simp only [noteImminentPreimage, Dispatch.run_bind_ok, Dispatch.run_ensure_ok,
    Dispatch.run_get_ok, Dispatch.run_okOr_ok, Dispatch.run_set_ok] at hrun
  obtain ⟨_, _, ⟨rfl, rfl⟩, status, _, ⟨hstatus, rfl⟩, expiry, _, ⟨hexpiry, rfl⟩, _, _,
    ⟨-, rfl⟩, rfl⟩ := hrun
  cases status with
  | missing block =>
      cases hexpiry
      exact ⟨_, hstatus, rfl⟩
  | available preimage => cases hexpiry

theorem noteImminentPreimage_effects {who : A} {c : CurrencyId} {data : List Byte}
    (hrun : (noteImminentPreimage cfg who c data).run s = .ok u s') :
    Effects cfg delegators s s' := by
  obtain ⟨expiry, hmissing, rfl⟩ := noteImminentPreimage_ok hrun
  exact Effects.of_deposit (.notedImminent who c data expiry hmissing)

theorem reapPreimage_ok {who : A} {h : H} {bound : ℕ}
    (hrun : (reapPreimage cfg who h bound).run s = .ok u s') :
    ∃ preimage, s.availablePreimage h = some preimage ∧
      s' = { s.setTokens preimage.currency
          ((Reserves.repatriateFree cfg.rules preimage.provider who preimage.deposit
            (s.tokens preimage.currency)).toOption.getD (s.tokens preimage.currency)) with
        preimages := s.preimages.erase h } := by
  simp only [reapPreimage, Dispatch.run_bind_ok, Dispatch.run_ensure_ok, Dispatch.run_get_ok,
    Dispatch.run_okOr_ok, Dispatch.run_set_ok] at hrun
  obtain ⟨_, _, ⟨rfl, rfl⟩, preimage, _, ⟨hpreimage, rfl⟩, _, _, ⟨-, rfl⟩, _, _, ⟨-, rfl⟩, _, _,
    ⟨-, rfl⟩, rfl⟩ := hrun
  exact ⟨preimage, hpreimage, rfl⟩

theorem reapPreimage_effects {who : A} {h : H} {bound : ℕ}
    (hrun : (reapPreimage cfg who h bound).run s = .ok u s') : Effects cfg delegators s s' := by
  obtain ⟨preimage, hpreimage, rfl⟩ := reapPreimage_ok hrun
  exact Effects.of_deposit (.reaped who h preimage hpreimage)

/-- What a call that succeeds does is a sequence of effects. -/
theorem call_effects {c : Call A H} (hrun : (c.call cfg).run s = .ok u s') :
    Effects cfg (Act.delegator (.call c)) s s' := by
  cases c with
  | propose who h c value => exact propose_effects hrun
  | second who proposal c bound => exact second_effects hrun
  | vote who refIndex accountVote => exact tryVote_effects hrun
  | emergencyCancel refIndex => exact emergencyCancel_effects hrun
  | externalPropose h => exact externalPropose_effects hrun
  | externalProposeMajority h =>
      exact Dispatch.run_modify_ok.mp hrun ▸ noticed_effects s _ _ _ _
  | externalProposeDefault h =>
      exact Dispatch.run_modify_ok.mp hrun ▸ noticed_effects s _ _ _ _
  | fastTrack origin h votingPeriod delay => exact fastTrack_effects hrun
  | vetoExternal who h => exact vetoExternal_effects hrun
  | cancelReferendum refIndex =>
      exact Dispatch.run_modify_ok.mp hrun ▸ Effects.of_referendum (.cancelled refIndex)
  | delegate who target conviction balance => exact tryDelegate_effects rfl hrun
  | undelegate who => exact tryUndelegate_effects rfl hrun
  | clearPublicProposals => exact Dispatch.run_modify_ok.mp hrun ▸ Effects.of_deposit .cleared
  | notePreimage who c data => exact notePreimage_effects hrun
  | noteImminentPreimage who c data => exact noteImminentPreimage_effects hrun
  | reapPreimage who h bound => exact reapPreimage_effects hrun
  | unlock target => exact Dispatch.run_modify_ok.mp hrun ▸ Effects.of_voting (.unlocked target)
  | removeVote who refIndex => exact tryRemoveVote_effects hrun
  | removeOtherVote who target refIndex => exact tryRemoveVote_effects hrun
  | blacklist h maybeRefIndex =>
      exact Dispatch.commit_of_ok hrun ▸ blacklist_effects s h maybeRefIndex
  | cancelProposal propIndex =>
      exact Dispatch.run_modify_ok.mp hrun ▸ Effects.of_deposit (.cancelled propIndex)

/-- A call has the effects of its successful and of its failed runs. -/
theorem commit_effects {x : DemocracyM A H Unit}
    (hok : ∀ u s', x.run s = .ok u s' → Effects cfg delegators s s')
    (herror : ∀ e s', x.run s = .error e s' → Effects cfg delegators s s') :
    Effects cfg delegators s (Dispatch.commit x s) := by
  cases hrun : x.run s with
  | ok u s' => exact Dispatch.commit_of_ok hrun ▸ hok u s' hrun
  | error e s' => exact Dispatch.commit_of_error hrun ▸ herror e s' hrun

theorem launchExternal_effects (cfg : Config A H) (now : ℕ) (s : State A H) :
    Effects cfg delegators s (Dispatch.commit (launchExternal cfg now) s) := by
  refine commit_effects (fun u s' hrun => ?_) fun e s' hrun => ?_
  · simp only [launchExternal, Dispatch.run_bind_ok, Dispatch.run_get_ok] at hrun
    obtain ⟨_, _, ⟨rfl, rfl⟩, hrun⟩ := hrun
    split at hrun
    · rename_i h threshold _
      exact Dispatch.run_set_ok.mp hrun ▸ (noticed_effects s true none _ _).trans
        (Effects.of_referendum (.injected _ h threshold _))
    · exact absurd (Dispatch.run_throw_ok.mp hrun) not_false
  · simp only [launchExternal, Dispatch.run_bind_error, Dispatch.run_get_ok,
      Dispatch.run_get_error, false_or] at hrun
    obtain ⟨_, _, ⟨rfl, rfl⟩, hrun⟩ := hrun
    split at hrun
    · exact absurd (Dispatch.run_set_error.mp hrun) not_false
    · rw [← (Dispatch.run_throw_error.mp hrun).2]

theorem launchPublic_effects (cfg : Config A H) (now : ℕ) (s : State A H) :
    Effects cfg delegators s (Dispatch.commit (launchPublic cfg now) s) := by
  refine commit_effects (fun u s' hrun => ?_) fun e s' hrun => ?_
  · simp only [launchPublic, Dispatch.run_bind_ok, Dispatch.run_get_ok] at hrun
    obtain ⟨_, _, ⟨rfl, rfl⟩, hrun⟩ := hrun
    split at hrun
    · rename_i winnerIndex propIndex h proposer hwinner
      have htabled : Effects cfg delegators s (s.table winnerIndex propIndex) :=
        Effects.of_deposit (.tabled winnerIndex propIndex h proposer hwinner)
      split at hrun
      · exact Dispatch.run_set_ok.mp hrun ▸ htabled.trans
          (Effects.of_referendum (.injected _ h _ _))
      · exact Dispatch.run_set_ok.mp hrun ▸ htabled
    · exact absurd (Dispatch.run_throw_ok.mp hrun) not_false
  · simp only [launchPublic, Dispatch.run_bind_error, Dispatch.run_get_ok,
      Dispatch.run_get_error, false_or] at hrun
    obtain ⟨_, _, ⟨rfl, rfl⟩, hrun⟩ := hrun
    split at hrun
    · split at hrun
      · exact absurd (Dispatch.run_set_error.mp hrun) not_false
      · exact absurd (Dispatch.run_set_error.mp hrun) not_false
    · rw [← (Dispatch.run_throw_error.mp hrun).2]

theorem orElse_effects {x y : DemocracyM A H Unit}
    (hx : ∀ s, Effects cfg delegators s (Dispatch.commit x s))
    (hy : ∀ s, Effects cfg delegators s (Dispatch.commit y s)) (s : State A H) :
    Effects cfg delegators s (Dispatch.commit (orElse x y) s) := by
  refine commit_effects (fun u s' hrun => ?_) fun e s' hrun => ?_
  · simp only [orElse, Dispatch.run_bind_ok, Dispatch.run_attempt_ok] at hrun
    obtain ⟨_, s₁, ⟨u, hrunx, rfl⟩ | ⟨e, hrunx, rfl⟩, hrun⟩ := hrun
    · obtain ⟨-, rfl⟩ := Dispatch.run_pure_ok.mp hrun
      exact Dispatch.commit_of_ok hrunx ▸ hx s
    · exact (Dispatch.commit_of_error hrunx ▸ hx s).trans (Dispatch.commit_of_ok hrun ▸ hy s₁)
  · simp only [orElse, Dispatch.run_bind_error, Dispatch.run_attempt_error, false_or,
      Dispatch.run_attempt_ok] at hrun
    obtain ⟨_, s₁, ⟨u, hrunx, rfl⟩ | ⟨e, hrunx, rfl⟩, hrun⟩ := hrun
    · exact absurd (Dispatch.run_pure_error.mp hrun) not_false
    · exact (Dispatch.commit_of_error hrunx ▸ hx s).trans (Dispatch.commit_of_error hrun ▸ hy s₁)

theorem launchNext_effects (cfg : Config A H) (now : ℕ) (s : State A H) :
    Effects cfg delegators s (Dispatch.commit (launchNext cfg now) s) := by
  have htaken : Effects cfg delegators s { s with lastTabledWasExternal := false } :=
    noticed_effects s _ _ _ _
  have hrest : Dispatch.commit (launchNext cfg now) s =
      Dispatch.commit
        (if s.lastTabledWasExternal then orElse (launchPublic cfg now) (launchExternal cfg now)
          else orElse (launchExternal cfg now) (launchPublic cfg now))
        { s with lastTabledWasExternal := false } := rfl
  rw [hrest]
  split
  · exact htaken.trans
      (orElse_effects (launchPublic_effects cfg now) (launchExternal_effects cfg now) _)
  · exact htaken.trans
      (orElse_effects (launchExternal_effects cfg now) (launchPublic_effects cfg now) _)

/-- **The effects of every act.** -/
theorem act_effects (cfg : Config A H) (s : State A H) (a : Act A H) :
    Effects cfg a.delegator s (act cfg s a) := by
  cases a with
  | call c =>
      rcases (Call.failsClean cfg c).commit_cases s with ⟨u, hrun⟩ | hsame
      · exact call_effects hrun
      · rw [act, hsame]
  | launch now => exact launchNext_effects cfg now s
  | giveBack h =>
      dsimp only [act]
      cases hpreimage : s.availablePreimage h with
      | none => exact Relation.ReflTransGen.refl
      | some preimage => exact Effects.of_deposit (.givenBack h preimage hpreimage)
  | slash h =>
      dsimp only [act]
      cases hpreimage : s.availablePreimage h with
      | none => exact Relation.ReflTransGen.refl
      | some preimage => exact Effects.of_deposit (.slashed h preimage hpreimage)
  | forget h =>
      dsimp only [act]
      split
      · rename_i hnone
        exact Effects.of_deposit (.forgotten h hnone)
      · exact Relation.ReflTransGen.refl
  | need h block => exact Effects.of_deposit (.needed h block)
  | finish refIndex approved now => exact Effects.of_referendum (.finished refIndex approved now)
  | elsewhere o => exact Effects.of_deposit (.elsewhere o)

/-- **The rule of effects.** What every effect preserves, every act does. -/
theorem act_invariant {P : State A H → Prop} {a : Act A H}
    (heffect : ∀ s s', Effect cfg a.delegator s s' → P s → P s') (s : State A H) (hs : P s) :
    P (act cfg s a) := by
  have hsteps : ∀ s', Effects cfg a.delegator s s' → P s' := by
    intro s' h
    induction h with
    | refl => exact hs
    | tail _ hlast ih => exact heffect _ _ hlast ih
  exact hsteps _ (act_effects cfg s a)

end Effects

/-! ## What deposits do not touch -/

/-- The referenda, the votes and the locks are as they were. -/
structure Untouched (s s' : State A H) : Prop where
  blockNumber : s'.blockNumber = s.blockNumber
  lock : s'.lock = s.lock
  referendumCount : s'.referendumCount = s.referendumCount
  lowestUnbaked : s'.lowestUnbaked = s.lowestUnbaked
  referendumInfoOf : s'.referendumInfoOf = s.referendumInfoOf
  votingOf : s'.votingOf = s.votingOf

section Frame

variable {cfg} {s s' s₁ s₂ : State A H}

omit [DecidableEq A] [DecidableEq H] in
theorem Untouched.refl (s : State A H) : Untouched s s := ⟨rfl, rfl, rfl, rfl, rfl, rfl⟩

omit [DecidableEq A] [DecidableEq H] in
theorem Untouched.trans (h : Untouched s s₁) (h' : Untouched s₁ s₂) : Untouched s s₂ :=
  ⟨h'.1.trans h.1, h'.2.trans h.2, h'.3.trans h.3, h'.4.trans h.4, h'.5.trans h.5,
    h'.6.trans h.6⟩

omit [DecidableEq A] [DecidableEq H] in
theorem untouched_foldl {α : Type} {f : State A H → α → State A H}
    (hf : ∀ s a, Untouched s (f s a)) (l : List α) (s : State A H) :
    Untouched s (l.foldl f s) := by
  induction l generalizing s with
  | nil => exact Untouched.refl s
  | cons a l ih => exact (hf s a).trans (ih (f s a))

omit [DecidableEq A] [DecidableEq H] in
theorem untouched_setTokens (s : State A H) (c : CurrencyId) (r : Reserves A) :
    Untouched s (s.setTokens c r) := ⟨rfl, rfl, rfl, rfl, rfl, rfl⟩

omit [DecidableEq H] in
theorem untouched_slashDepositors (s : State A H) (deposit : Deposit A) :
    Untouched s (s.slashDepositors cfg deposit) :=
  untouched_foldl (fun s _ => untouched_setTokens s _ _) deposit.depositors s

omit [DecidableEq H] in
theorem untouched_refundDepositors (s : State A H) (deposit : Deposit A) :
    Untouched s (s.refundDepositors deposit) :=
  untouched_foldl (fun s _ => untouched_setTokens s _ _) deposit.depositors s

omit [DecidableEq H] in
theorem untouched_slashProposal (s : State A H) (propIndex : ℕ) :
    Untouched s (s.slashProposal cfg propIndex) := by
  unfold State.slashProposal
  split
  · rename_i deposit _
    have herased : Untouched s { s with depositOf := s.depositOf.erase propIndex } :=
      ⟨rfl, rfl, rfl, rfl, rfl, rfl⟩
    exact herased.trans (untouched_slashDepositors _ deposit)
  · exact Untouched.refl s

omit [DecidableEq H] in
theorem untouched_table (s : State A H) (winnerIndex propIndex : ℕ) :
    Untouched s (s.table winnerIndex propIndex) := by
  unfold State.table
  dsimp only
  split
  · rename_i deposit _
    have herased : Untouched s { s with
        publicProps := swapRemove s.publicProps winnerIndex
        depositOf := s.depositOf.erase propIndex } := ⟨rfl, rfl, rfl, rfl, rfl, rfl⟩
    exact herased.trans (untouched_refundDepositors _ deposit)
  · exact ⟨rfl, rfl, rfl, rfl, rfl, rfl⟩

/-- **Deposits do not touch the referenda, the votes and the locks.** -/
theorem DepositEffect.frame (h : DepositEffect cfg s s') : Untouched s s' := by
  cases h with
  | tabled winnerIndex propIndex => exact untouched_table s winnerIndex propIndex
  | cancelled propIndex =>
      have hremoved : Untouched s { s with
          publicProps := s.publicProps.filter fun p => p.1 ≠ propIndex } :=
        ⟨rfl, rfl, rfl, rfl, rfl, rfl⟩
      exact hremoved.trans (untouched_slashProposal _ propIndex)
  | blacklisted h =>
      unfold State.removeQueued
      split
      · rename_i propIndex _ _
        have hremoved : Untouched s { s with
            publicProps := s.publicProps.eraseP fun p => p.2.1 = h } :=
          ⟨rfl, rfl, rfl, rfl, rfl, rfl⟩
        exact hremoved.trans (untouched_slashProposal _ propIndex)
      · exact Untouched.refl s
  | proposed | seconded | cleared | noted | notedImminent | reaped | givenBack | slashed
  | forgotten | needed | elsewhere | noticed => exact ⟨rfl, rfl, rfl, rfl, rfl, rfl⟩

end Frame

end Setheum.Democracy
