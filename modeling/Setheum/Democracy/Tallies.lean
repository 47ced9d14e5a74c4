import Setheum.Democracy.Effects

/-!
# What a tally counts

The tally of an ongoing referendum is what its recorded votes contribute, each with the delegations
recorded at its account. The delegations recorded at an account are those of the accounts that
delegate to it. Both sums are over the accounts with a record.

* `tallied_upstream` — changing recorded delegations and the tallies with them keeps the tallies.
* `VotingEffect.tallied`, `DelegationEffect.tallied`, `ReferendumEffect.tallied` — one lemma for
  each kind of effect.
* `tallied_of_run` — in every state that the chain can reach.
-/

set_option autoImplicit false

namespace Setheum.Democracy

open StorageMap

variable {A H : Type} [DecidableEq A] [DecidableEq H]

/-! ## Contributions -/

/-- What a vote counts for with the delegations to its account; a split vote carries none. -/
def AccountVote.contribution (vote : AccountVote) (delegations : Delegations) : Tally :=
  match vote with
  | standard aye conviction balance =>
      (conviction.votes balance).toward aye + delegations.toward aye
  | split aye nay => (split aye nay).tally

/-- The vote that an account has recorded on a referendum. -/
def Voting.vote? (voting : Voting A) (refIndex : ℕ) : Option AccountVote :=
  match voting with
  | direct votes _ _ => votes.lookup refIndex
  | delegating _ _ _ _ _ => none

/-- What an account contributes to the tally of a referendum. -/
def Voting.contribution (voting : Voting A) (refIndex : ℕ) : Tally :=
  (voting.vote? refIndex).elim 0 fun vote => vote.contribution voting.delegations

/-- The account that this one delegates to. -/
def Voting.target? : Voting A → Option A
  | direct _ _ _ => none
  | delegating _ target _ _ _ => some target

/-- What an account delegates to another one. -/
def Voting.delegatedTo (who : A) : Voting A → Delegations
  | direct _ _ _ => 0
  | delegating balance target conviction _ _ =>
      if target = who then conviction.votes balance else 0

/-- What the recorded votes on a referendum add up to. -/
def State.tallyOf (s : State A H) (refIndex : ℕ) : Tally :=
  sumBy (fun _ voting => voting.contribution refIndex) s.votingOf

/-- What the accounts that delegate to this one add up to. -/
def State.delegationsTo (s : State A H) (who : A) : Delegations :=
  sumBy (fun _ voting => voting.delegatedTo who) s.votingOf

section Contribution

omit [DecidableEq A]

theorem Delegations.toward_add (d e : Delegations) (aye : Bool) :
    (d + e).toward aye = d.toward aye + e.toward aye := by
  cases aye <;> rfl

theorem Tally.increaseStandard_add (vote : AccountVote) (delegations : Delegations) (t : Tally) :
    ((t.add vote).increaseStandard vote delegations) = t + vote.contribution delegations := by
  cases vote with
  | standard aye conviction balance => exact add_assoc t _ _
  | split aye nay => rfl

/-- Removing a vote with its delegations leaves what the others contribute. -/
theorem Tally.reduceStandard_remove {vote : AccountVote} {delegations : Delegations}
    {others t : Tally} (h : (others + vote.contribution delegations).remove vote = some t) :
    t.reduceStandard vote delegations = others := by
  cases vote with
  | standard aye conviction balance =>
      have hsplit : others + (AccountVote.standard aye conviction balance).contribution delegations
          = others + delegations.toward aye
            + (AccountVote.standard aye conviction balance).tally := by
        rw [add_right_comm, add_assoc]
        rfl
      rw [hsplit, Tally.remove_add] at h
      cases h
      exact Tally.add_sub_cancel_right others (delegations.toward aye)
  | split aye nay =>
      have hremoved : (others + (AccountVote.split aye nay).tally).remove (.split aye nay)
          = some others := Tally.remove_add _ others
      exact Option.some.inj (h.symm.trans hremoved)

theorem Retracted.eq {votes : Map ℕ AccountVote} {delegations : Delegations} {refIndex : ℕ}
    {others tally' : Tally}
    (h : Retracted votes delegations refIndex (others +
      (votes.lookup refIndex).elim 0 fun vote => vote.contribution delegations) tally') :
    tally' = others := by
  unfold Retracted at h
  split at h
  · rename_i old hold
    obtain ⟨t, ht, rfl⟩ := h
    rw [hold] at ht
    exact Tally.reduceStandard_remove ht
  · rename_i hnone
    rw [h, hnone]
    exact add_zero others

end Contribution

/-! ## What the other accounts add up to -/

/-- What the votes of the others add up to. -/
def State.tallyBut (s : State A H) (who : A) (refIndex : ℕ) : Tally :=
  sumBy (fun _ voting => voting.contribution refIndex) (s.votingOf.erase who)

/-- What the others delegate to an account. -/
def State.delegationsBut (s : State A H) (who a : A) : Delegations :=
  sumBy (fun _ voting => voting.delegatedTo a) (s.votingOf.erase who)

section But

variable {s s' : State A H} {who : A} {v : Voting A}

omit [DecidableEq H]

theorem State.tallyOf_eq (s : State A H) (who : A) (refIndex : ℕ) :
    s.tallyOf refIndex = s.tallyBut who refIndex + (s.voting who).contribution refIndex := by
  unfold State.tallyOf State.tallyBut State.voting
  rw [← sumBy_erase_add _ s.votingOf who, weightAt_eq_get _ _ _ (d := Voting.default) rfl]

theorem State.delegationsTo_eq (s : State A H) (who a : A) :
    s.delegationsTo a = s.delegationsBut who a + (s.voting who).delegatedTo a := by
  unfold State.delegationsTo State.delegationsBut State.voting
  rw [← sumBy_erase_add _ s.votingOf who, weightAt_eq_get _ _ _ (d := Voting.default) rfl]

theorem tallyOf_of_insert (h : s'.votingOf = s.votingOf.insert who v) (refIndex : ℕ) :
    s'.tallyOf refIndex = s.tallyBut who refIndex + v.contribution refIndex := by
  unfold State.tallyOf State.tallyBut
  rw [h, sumBy_insert]

theorem delegationsTo_of_insert (h : s'.votingOf = s.votingOf.insert who v) (a : A) :
    s'.delegationsTo a = s.delegationsBut who a + v.delegatedTo a := by
  unfold State.delegationsTo State.delegationsBut
  rw [h, sumBy_insert]

theorem voting_of_insert (h : s'.votingOf = s.votingOf.insert who v) : s'.voting who = v := by
  unfold State.voting
  rw [h, get_insert]

theorem voting_of_insert_ne (h : s'.votingOf = s.votingOf.insert who v) {a : A} (hne : a ≠ who) :
    s'.voting a = s.voting a := by
  unfold State.voting
  rw [h, get_insert_ne _ _ _ hne]

end But

/-! ## The invariant -/

/-- Nobody delegates to itself, and votes are on referenda that there are. -/
structure Shape (s : State A H) : Prop where
  target : ∀ who, (s.voting who).target? ≠ some who
  votes : ∀ who i, (s.voting who).vote? i ≠ none → i < s.referendumCount
  ongoing : ∀ i status, s.referendumInfoOf.lookup i = some (.ongoing status) →
    i < s.referendumCount

/-- The tallies are what the recorded votes contribute. -/
def Counted (s : State A H) : Prop :=
  ∀ i status, s.referendumInfoOf.lookup i = some (.ongoing status) → status.tally = s.tallyOf i

/-- The recorded delegations are what is delegated, with this as the voting of one account. -/
def RecordedBut (s : State A H) (who : A) (v : Voting A) : Prop :=
  ∀ a, (s.voting a).delegations = s.delegationsBut who a + v.delegatedTo a

structure Tallied (s : State A H) : Prop where
  shape : Shape s
  counted : Counted s
  recorded : ∀ who, (s.voting who).delegations = s.delegationsTo who

section Change

variable {s s' : State A H} {who target : A} {v : Voting A} {cfg : Config A H}

omit [DecidableEq H]

theorem Tallied.recordedBut (h : Tallied s) (who : A) : RecordedBut s who (s.voting who) :=
  fun a => (h.recorded a).trans (s.delegationsTo_eq who a)

/-- A change of one account's voting. -/
theorem tallied_of_insert (hshape : Shape s) (hrecorded : RecordedBut s who v)
    (hvoting : s'.votingOf = s.votingOf.insert who v)
    (hcount : s'.referendumCount = s.referendumCount)
    (hinfo : ∀ i status', s'.referendumInfoOf.lookup i = some (.ongoing status') →
      (∃ status, s.referendumInfoOf.lookup i = some (.ongoing status)) ∧
        status'.tally = s.tallyBut who i + v.contribution i)
    (hdelegations : v.delegations = (s.voting who).delegations)
    (htarget : v.target? ≠ some who) (hvotes : ∀ i, v.vote? i ≠ none → i < s.referendumCount) :
    Tallied s' where
  shape :=
    { target := fun a => by
        by_cases hne : a = who
        · rw [hne, voting_of_insert hvoting]
          exact htarget
        · rw [voting_of_insert_ne hvoting hne]
          exact hshape.target a
      votes := fun a i => by
        rw [hcount]
        by_cases hne : a = who
        · rw [hne, voting_of_insert hvoting]
          exact hvotes i
        · rw [voting_of_insert_ne hvoting hne]
          exact hshape.votes a i
      ongoing := fun i status' hstatus' => by
        obtain ⟨⟨status, hstatus⟩, -⟩ := hinfo i status' hstatus'
        rw [hcount]
        exact hshape.ongoing i status hstatus }
  counted i status' hstatus' := by
    rw [tallyOf_of_insert hvoting]
    exact (hinfo i status' hstatus').2
  recorded a := by
    rw [delegationsTo_of_insert hvoting, ← hrecorded a]
    by_cases hne : a = who
    · rw [hne, voting_of_insert hvoting, hdelegations]
    · rw [voting_of_insert_ne hvoting hne]

/-- A change of one account's voting that contributes what the account did before. -/
theorem tallied_of_same (hshape : Shape s) (hcounted : Counted s) (hrecorded : RecordedBut s who v)
    (hvoting : s'.votingOf = s.votingOf.insert who v)
    (hcount : s'.referendumCount = s.referendumCount)
    (hinfo : s'.referendumInfoOf = s.referendumInfoOf)
    (hsame : ∀ i status, s.referendumInfoOf.lookup i = some (.ongoing status) →
      v.contribution i = (s.voting who).contribution i)
    (hdelegations : v.delegations = (s.voting who).delegations)
    (htarget : v.target? ≠ some who) (hvotes : ∀ i, v.vote? i ≠ none → i < s.referendumCount) :
    Tallied s' := by
  refine tallied_of_insert hshape hrecorded hvoting hcount (fun i status hstatus => ?_)
    hdelegations htarget hvotes
  rw [hinfo] at hstatus
  refine ⟨⟨status, hstatus⟩, ?_⟩
  rw [hsame i status hstatus, ← s.tallyOf_eq who i]
  exact hcounted i status hstatus

/-! ## Changing recorded delegations -/

/-- The delegations recorded at an account change, and with them the tallies of the ongoing
referenda that it has cast a standard vote in. -/
structure ChangesUpstream (target : A) (delegations : Delegations) (f : Bool → Tally → Tally)
    (s s' : State A H) : Prop where
  votingOf : s'.votingOf =
    s.votingOf.insert target ((s.voting target).setDelegations delegations)
  info : ∀ i, s'.referendumInfoOf.lookup i = (s.referendumInfoOf.lookup i).map
    (ReferendumInfo.mapTally (tallyChange f ((s.voting target).vote? i)))
  count : s'.referendumCount = s.referendumCount
  lock : s'.lock = s.lock
  blockNumber : s'.blockNumber = s.blockNumber

theorem changesUpstream_increase (s : State A H) (target : A) (amount : Delegations) :
    ChangesUpstream target ((s.voting target).delegations + amount)
      (fun aye t => t.increase aye amount) s (s.increaseUpstreamDelegation target amount) := by
  unfold State.increaseUpstreamDelegation
  cases hvoting : s.voting target with
  | direct votes delegations prior =>
      exact ⟨by rw [hvoting]; rfl, by rw [hvoting]; exact lookup_modifyTallies _ votes _, rfl, rfl,
        rfl⟩
  | delegating balance target' conviction delegations prior =>
      refine ⟨by rw [hvoting]; rfl, fun i => ?_, rfl, rfl, rfl⟩
      rw [hvoting]
      simp [Voting.vote?, tallyChange, State.setVoting]

theorem changesUpstream_reduce (s : State A H) (target : A) (amount : Delegations) :
    ChangesUpstream target ((s.voting target).delegations - amount)
      (fun aye t => t.reduce aye amount) s (s.reduceUpstreamDelegation target amount) := by
  unfold State.reduceUpstreamDelegation
  cases hvoting : s.voting target with
  | direct votes delegations prior =>
      exact ⟨by rw [hvoting]; rfl, by rw [hvoting]; exact lookup_modifyTallies _ votes _, rfl, rfl,
        rfl⟩
  | delegating balance target' conviction delegations prior =>
      refine ⟨by rw [hvoting]; rfl, fun i => ?_, rfl, rfl, rfl⟩
      rw [hvoting]
      simp [Voting.vote?, tallyChange, State.setVoting]

variable {delegations : Delegations} {f : Bool → Tally → Tally}

omit [DecidableEq A] in
@[simp] theorem Voting.vote?_setCommon (v : Voting A) (d : Delegations) (p : PriorLock) (i : ℕ) :
    (v.setCommon d p).vote? i = v.vote? i := by
  cases v <;> rfl

omit [DecidableEq A] in
@[simp] theorem Voting.target?_setCommon (v : Voting A) (d : Delegations) (p : PriorLock) :
    (v.setCommon d p).target? = v.target? := by
  cases v <;> rfl

@[simp] theorem Voting.delegatedTo_setCommon (v : Voting A) (d : Delegations) (p : PriorLock)
    (a : A) : (v.setCommon d p).delegatedTo a = v.delegatedTo a := by
  cases v <;> rfl

theorem ChangesUpstream.ongoing (h : ChangesUpstream target delegations f s s') {i : ℕ}
    {status' : ReferendumStatus H}
    (hstatus' : s'.referendumInfoOf.lookup i = some (.ongoing status')) :
    ∃ status, s.referendumInfoOf.lookup i = some (.ongoing status) ∧
      status'.tally = tallyChange f ((s.voting target).vote? i) status.tally := by
  rw [h.info, Option.map_eq_some_iff] at hstatus'
  obtain ⟨info, hlookup, hmap⟩ := hstatus'
  cases info with
  | ongoing status =>
      cases hmap
      exact ⟨status, hlookup, rfl⟩
  | finished approved endBlock => cases hmap

theorem ChangesUpstream.voting_eq (h : ChangesUpstream target delegations f s s') :
    s'.voting target = (s.voting target).setDelegations delegations :=
  voting_of_insert h.votingOf

theorem ChangesUpstream.shape (h : ChangesUpstream target delegations f s s') (hs : Shape s) :
    Shape s' where
  target a := by
    by_cases hne : a = target
    · subst hne
      rw [h.voting_eq, Voting.setDelegations, Voting.target?_setCommon]
      exact hs.target a
    · rw [voting_of_insert_ne h.votingOf hne]
      exact hs.target a
  votes a i := by
    rw [h.count]
    by_cases hne : a = target
    · subst hne
      rw [h.voting_eq, Voting.setDelegations, Voting.vote?_setCommon]
      exact hs.votes a i
    · rw [voting_of_insert_ne h.votingOf hne]
      exact hs.votes a i
  ongoing i status' hstatus' := by
    obtain ⟨status, hstatus, -⟩ := h.ongoing hstatus'
    rw [h.count]
    exact hs.ongoing i status hstatus

/-- **The tallies follow the recorded delegations.** -/
theorem ChangesUpstream.counted (h : ChangesUpstream target delegations f s s')
    (hf : ∀ aye t, f aye (t + (s.voting target).delegations.toward aye)
      = t + delegations.toward aye)
    (hs : Counted s) : Counted s' := by
  intro i status' hstatus'
  obtain ⟨status, hstatus, htally⟩ := h.ongoing hstatus'
  rw [htally, hs i status hstatus, tallyOf_of_insert h.votingOf, s.tallyOf_eq target i]
  unfold Voting.contribution
  rw [Voting.setDelegations, Voting.vote?_setCommon, Voting.setCommon_delegations]
  cases hvote : (s.voting target).vote? i with
  | none => rfl
  | some vote =>
      cases vote with
      | standard aye conviction balance =>
          simp only [tallyChange, Option.bind_some, AccountVote.asStandard, Option.elim_some,
            AccountVote.contribution]
          rw [← add_assoc, hf, add_assoc]
      | split aye nay => rfl

/-- The recorded delegations are what is delegated if one more account delegates the difference. -/
theorem ChangesUpstream.recordedBut (h : ChangesUpstream target delegations f s s')
    {v' : Voting A} (hne : target ≠ who) (hs : RecordedBut s who v)
    (htarget : delegations = s.delegationsBut who target + v'.delegatedTo target)
    (hothers : ∀ a, a ≠ target → v'.delegatedTo a = v.delegatedTo a) :
    RecordedBut s' who v' := by
  have hbut : ∀ a, s'.delegationsBut who a = s.delegationsBut who a := by
    intro a
    have hsame : s'.delegationsTo a = s.delegationsTo a := by
      rw [delegationsTo_of_insert h.votingOf, s.delegationsTo_eq target a, Voting.setDelegations,
        Voting.delegatedTo_setCommon]
    rw [s'.delegationsTo_eq who a, s.delegationsTo_eq who a,
      voting_of_insert_ne h.votingOf hne.symm] at hsame
    exact Delegations.add_right_cancel hsame
  intro a
  rw [hbut]
  by_cases ha : a = target
  · subst ha
    rw [h.voting_eq, Voting.setDelegations, Voting.setCommon_delegations, htarget]
  · rw [voting_of_insert_ne h.votingOf ha, hs a, hothers a ha]

end Change

/-! ## The effects -/

section Effects

variable {cfg : Config A H} {s s' : State A H}

section Delegation

omit [DecidableEq H]

variable {who target : A} {conviction : Conviction} {balance : ℕ} {delegations : Delegations}
variable {prior : PriorLock}

omit [DecidableEq A] in
theorem Voting.contribution_of_vote? {v : Voting A} {i : ℕ} (h : v.vote? i = none) :
    v.contribution i = 0 := by
  rw [Voting.contribution, h]
  rfl

/-- Delegating, from a state in which the account delegates to nobody and has no votes. -/
theorem tallied_startDelegation (hshape : Shape s) (hcounted : Counted s) {v : Voting A}
    (hrecorded : RecordedBut s who v) (hv : ∀ a, v.delegatedTo a = 0)
    (hvotes : ∀ i, (s.voting who).vote? i = none)
    (hdelegations : delegations = (s.voting who).delegations) (hne : who ≠ target) :
    Tallied (s.startDelegation who target conviction balance delegations prior) := by
  have hchange := changesUpstream_increase s target (conviction.votes balance)
  have hcounted' := hchange.counted (fun aye t => by
    rw [Delegations.toward_add, ← add_assoc]
    rfl) hcounted
  have hrecorded' : RecordedBut (s.increaseUpstreamDelegation target (conviction.votes balance))
      who (.delegating balance target conviction delegations prior) := by
    refine hchange.recordedBut hne.symm hrecorded ?_ fun a ha => ?_
    · rw [hrecorded target, hv, add_zero]
      simp [Voting.delegatedTo]
    · rw [hv]
      exact if_neg ha.symm
  have hwho := voting_of_insert_ne hchange.votingOf hne
  refine tallied_of_same (hchange.shape hshape) hcounted' hrecorded' rfl rfl rfl
    (fun i _ _ => ?_) ?_ ?_ (fun i hi => absurd rfl hi)
  · rw [hwho, Voting.contribution_of_vote? (hvotes i)]
    rfl
  · rw [hwho, ← hdelegations]
    rfl
  · exact fun h => hne.symm (Option.some.inj h)

/-- Taking a delegation back: what is left to do is to record that nothing is delegated. -/
theorem tallied_endDelegation (hs : Tallied s)
    (hvoting : s.voting who = .delegating balance target conviction delegations prior) :
    let s₀ := s.reduceUpstreamDelegation target (conviction.votes balance)
    Shape s₀ ∧ Counted s₀ ∧ s₀.voting who = s.voting who ∧
      ∀ v : Voting A, (∀ a, v.delegatedTo a = 0) → RecordedBut s₀ who v := by
  intro s₀
  have hne : target ≠ who := by
    rintro rfl
    have htarget := hs.shape.target target
    rw [hvoting] at htarget
    exact htarget rfl
  have hchange := changesUpstream_reduce s target (conviction.votes balance)
  have hrecorded := hs.recordedBut who
  have hsplit : (s.voting target).delegations =
      s.delegationsBut who target + conviction.votes balance := by
    rw [hrecorded target, hvoting]
    simp [Voting.delegatedTo]
  have hreduced : (s.voting target).delegations - conviction.votes balance =
      s.delegationsBut who target := by
    rw [hsplit, Delegations.add_sub_cancel_right]
  refine ⟨hchange.shape hs.shape, hchange.counted (fun aye t => ?_) hs.counted,
    voting_of_insert_ne hchange.votingOf hne.symm, fun v hv => ?_⟩
  · rw [hreduced, hsplit, Delegations.toward_add, ← add_assoc]
    exact Tally.add_sub_cancel_right _ _
  · refine hchange.recordedBut hne hrecorded ?_ fun a ha => ?_
    · rw [hreduced, hv, add_zero]
    · rw [hv, hvoting]
      exact (if_neg ha.symm).symm

end Delegation

omit [DecidableEq H] in
/-- Replacing one's vote: the tally gets the difference of the contributions. -/
theorem tallied_setTally {who : A} {refIndex : ℕ} {status : ReferendumStatus H} {tally : Tally}
    {votes votes' : Map ℕ AccountVote} {delegations : Delegations} {prior : PriorLock}
    (hs : Tallied s) (hstatus : s.referendumInfoOf.lookup refIndex = some (.ongoing status))
    (hvoting : s.voting who = .direct votes delegations prior)
    (hvotes : ∀ i, i ≠ refIndex → votes'.lookup i = votes.lookup i)
    (htally : tally = s.tallyBut who refIndex +
      (votes'.lookup refIndex).elim 0 fun vote => vote.contribution delegations)
    (hvotingOf : s'.votingOf = s.votingOf.insert who (.direct votes' delegations prior))
    (hcount : s'.referendumCount = s.referendumCount)
    (hinfo : s'.referendumInfoOf =
      s.referendumInfoOf.insert refIndex (.ongoing { status with tally := tally })) :
    Tallied s' := by
  have hlt := hs.shape.ongoing refIndex status hstatus
  refine tallied_of_insert hs.shape (v := .direct votes' delegations prior) (fun a => ?_)
    hvotingOf hcount (fun i status' hstatus' => ?_) ?_ nofun fun i hi => ?_
  · rw [hs.recordedBut who a, hvoting]
    rfl
  · by_cases hne : i = refIndex
    · subst hne
      rw [hinfo, AList.lookup_insert] at hstatus'
      cases hstatus'
      exact ⟨⟨status, hstatus⟩, htally⟩
    · rw [hinfo, AList.lookup_insert_ne hne] at hstatus'
      refine ⟨⟨status', hstatus'⟩, ?_⟩
      rw [hs.counted i status' hstatus', s.tallyOf_eq who i, hvoting]
      simp only [Voting.contribution, Voting.vote?, hvotes i hne, Voting.delegations]
  · rw [hvoting]
    rfl
  · by_cases hne : i = refIndex
    · exact hne ▸ hlt
    · refine hs.shape.votes who i ?_
      rw [hvoting]
      simpa [Voting.vote?, hvotes i hne] using hi

omit [DecidableEq H] in
/-- **Votes and unlocks keep the tallies.** -/
theorem VotingEffect.tallied (h : VotingEffect s s') (hs : Tallied s) : Tallied s' := by
  cases h with
  | voted who refIndex vote status votes delegations prior tally hstatus hvoting htally =>
      refine tallied_setTally hs hstatus hvoting
        (fun i hne => AList.lookup_insert_ne hne) ?_ rfl rfl rfl
      rw [hs.counted refIndex status hstatus, s.tallyOf_eq who refIndex, hvoting] at htally
      rw [htally.eq, Tally.increaseStandard_add, AList.lookup_insert]
      rfl
  | unvoted who refIndex old status votes delegations prior tally hstatus hvoting hold htally =>
      refine tallied_setTally hs hstatus hvoting
        (fun i hne => AList.lookup_erase_ne hne) ?_ rfl rfl rfl
      rw [hs.counted refIndex status hstatus, s.tallyOf_eq who refIndex, hvoting] at htally
      simp only [Voting.contribution, Voting.vote?, hold, Option.elim_some,
        Voting.delegations] at htally
      rw [Tally.reduceStandard_remove htally, AList.lookup_erase]
      exact (add_zero _).symm
  | settled who refIndex votes delegations prior prior' hover hvoting hprior =>
      refine tallied_of_same hs.shape hs.counted (v := .direct (votes.erase refIndex) delegations
        prior') (fun a => ?_) rfl rfl rfl (fun i status hstatus => ?_) ?_
        (fun htarget => absurd htarget.symm (Option.some_ne_none who)) fun i hi => ?_
      · rw [hs.recordedBut who a, hvoting]
        rfl
      · have hne : i ≠ refIndex := by
          rintro rfl
          exact hover status hstatus
        rw [hvoting]
        simp only [Voting.contribution, Voting.vote?, AList.lookup_erase_ne hne,
          Voting.delegations]
      · rw [hvoting]
        rfl
      · refine hs.shape.votes who i ?_
        rw [hvoting]
        intro hnone
        refine hi ?_
        by_cases hne : i = refIndex
        · exact hne ▸ AList.lookup_erase i votes
        · exact (AList.lookup_erase_ne hne).trans hnone
  | unlocked who =>
      refine tallied_of_same hs.shape hs.counted
        (v := (s.voting who).rejig s.blockNumber) (fun a => ?_) rfl rfl rfl (fun i _ _ => ?_) ?_ ?_
        fun i hi => ?_
      · rw [Voting.rejig, Voting.delegatedTo_setCommon]
        exact hs.recordedBut who a
      · unfold Voting.contribution Voting.rejig
        rw [Voting.vote?_setCommon, Voting.setCommon_delegations]
      · rw [Voting.rejig, Voting.setCommon_delegations]
      · rw [Voting.rejig, Voting.target?_setCommon]
        exact hs.shape.target who
      · rw [Voting.rejig, Voting.vote?_setCommon] at hi
        exact hs.shape.votes who i hi

omit [DecidableEq H] in
/-- **So do delegations.** -/
theorem DelegationEffect.tallied {who : A} (h : DelegationEffect cfg who s s') (hs : Tallied s) :
    Tallied s' := by
  cases h with
  | delegated target conviction balance votes delegations prior hne hvoting hempty =>
      have hvotes : ∀ i, (s.voting who).vote? i = none := by
        intro i
        rw [hvoting]
        refine AList.lookup_eq_none.mpr fun hi => ?_
        rw [AList.mem_keys, hempty] at hi
        cases hi
      exact tallied_startDelegation hs.shape hs.counted (hs.recordedBut who)
        (fun a => by rw [hvoting]; rfl) hvotes (by rw [hvoting]; rfl) hne
  | redelegated target conviction balance oldBalance oldTarget oldConviction delegations
      prior hne hvoting =>
      obtain ⟨hshape, hcounted, hwho, hrecorded⟩ := tallied_endDelegation hs hvoting
      exact tallied_startDelegation hshape hcounted (hrecorded Voting.default fun _ => rfl)
        (fun _ => rfl) (fun i => by rw [hwho, hvoting]; rfl) (by rw [hwho, hvoting]; rfl) hne
  | undelegated target balance conviction delegations prior hvoting =>
      obtain ⟨hshape, hcounted, hwho, hrecorded⟩ := tallied_endDelegation hs hvoting
      refine tallied_of_same hshape hcounted (hrecorded (.direct ∅ delegations _) fun _ => rfl)
        rfl rfl rfl (fun i _ _ => ?_) ?_ nofun fun i hi => absurd rfl hi
      · rw [hwho, hvoting]
        rfl
      · rw [hwho, hvoting]
        rfl

omit [DecidableEq H] in
/-- A change of the referenda only: what is ongoing was, with its tally, or nobody has voted on
it. -/
theorem tallied_of_referenda (hs : Tallied s) (hvoting : s'.votingOf = s.votingOf)
    (hcount : s.referendumCount ≤ s'.referendumCount)
    (hinfo : ∀ i status, s'.referendumInfoOf.lookup i = some (.ongoing status) →
      s.referendumInfoOf.lookup i = some (.ongoing status) ∨
        (i = s.referendumCount ∧ i < s'.referendumCount ∧ status.tally = 0)) : Tallied s' := by
  have hsame : ∀ who, s'.voting who = s.voting who := fun who => by
    unfold State.voting
    rw [hvoting]
  have htally : ∀ i, s'.tallyOf i = s.tallyOf i := fun i => by
    unfold State.tallyOf
    rw [hvoting]
  refine ⟨⟨fun who => ?_, fun who i hi => ?_, fun i status hstatus => ?_⟩,
    fun i status hstatus => ?_, fun who => ?_⟩
  · rw [hsame]
    exact hs.shape.target who
  · rw [hsame] at hi
    have hlt := hs.shape.votes who i hi
    omega
  · rcases hinfo i status hstatus with hold | ⟨-, hlt, -⟩
    · have hlt := hs.shape.ongoing i status hold
      omega
    · exact hlt
  · rw [htally]
    rcases hinfo i status hstatus with hold | ⟨rfl, -, hzero⟩
    · exact hs.counted i status hold
    · -- nobody has voted on a referendum that has not started
      have hnone : ∀ e ∈ s.votingOf.entries, e.2.contribution s.referendumCount = 0 := by
        rintro ⟨who, voting⟩ he
        refine Voting.contribution_of_vote? ?_
        by_contra hvote
        have hget : s.voting who = voting := by
          unfold State.voting StorageMap.get
          rw [mem_entries_iff.mp he]
          rfl
        exact lt_irrefl _ (hs.shape.votes who _ (hget ▸ hvote))
      rw [hzero]
      exact (sumBy_eq_zero _ hnone).symm
  · rw [hsame]
    unfold State.delegationsTo
    rw [hvoting]
    exact hs.recorded who

omit [DecidableEq A] [DecidableEq H] in
theorem ReferendumEffect.tallied [DecidableEq A] (h : ReferendumEffect s s') (hs : Tallied s) :
    Tallied s' := by
  cases h with
  | injected endBlock h threshold delay =>
      refine tallied_of_referenda hs rfl (Nat.le_succ _) fun i status hstatus => ?_
      by_cases hne : i = s.referendumCount
      · subst hne
        rw [State.injectReferendum, AList.lookup_insert] at hstatus
        cases hstatus
        exact .inr ⟨rfl, Nat.lt_succ_self _, rfl⟩
      · rw [State.injectReferendum, AList.lookup_insert_ne hne] at hstatus
        exact .inl hstatus
  | cancelled refIndex =>
      refine tallied_of_referenda hs rfl le_rfl fun i status hstatus => ?_
      by_cases hne : i = refIndex
      · subst hne
        rw [State.internalCancelReferendum, AList.lookup_erase] at hstatus
        cases hstatus
      · rw [State.internalCancelReferendum, AList.lookup_erase_ne hne] at hstatus
        exact .inl hstatus
  | finished refIndex approved now =>
      refine tallied_of_referenda hs rfl le_rfl fun i status hstatus => ?_
      by_cases hne : i = refIndex
      · subst hne
        rw [State.finish, AList.lookup_insert] at hstatus
        cases hstatus
      · rw [State.finish, AList.lookup_insert_ne hne] at hstatus
        exact .inl hstatus

theorem Effect.tallied {delegators : A → Prop} (h : Effect cfg delegators s s')
    (hs : Tallied s) : Tallied s' := by
  cases h with
  | deposit h =>
      have hframe := h.frame
      refine tallied_of_referenda hs hframe.votingOf hframe.referendumCount.ge
        fun i status hstatus => .inl ?_
      rwa [hframe.referendumInfoOf] at hstatus
  | referendum h => exact h.tallied hs
  | voting h => exact h.tallied hs
  | delegation who hwho h => exact h.tallied hs

end Effects

/-! ## Runs -/

omit [DecidableEq H] in
theorem Genesis.tallied {s : State A H} (h : Genesis s) : Tallied s := by
  have hvoting : ∀ who, s.voting who = Voting.default := fun who => by
    unfold State.voting
    rw [h.votingOf]
    rfl
  refine ⟨⟨fun who => ?_, fun who i hi => ?_, fun i status hstatus => ?_⟩,
    fun i status hstatus => ?_, fun who => ?_⟩
  · rw [hvoting]
    nofun
  · rw [hvoting] at hi
    exact absurd rfl hi
  · rw [h.referendumInfoOf] at hstatus
    cases hstatus
  · rw [h.referendumInfoOf] at hstatus
    cases hstatus
  · rw [hvoting]
    unfold State.delegationsTo
    rw [h.votingOf]
    rfl

theorem Tallied.step {cfg : Config A H} (rt : Runtime A H) {s : State A H} (hs : Tallied s)
    (l : Step A H) : Tallied (step cfg rt s l) :=
  step_invariant (fun s _ hs => act_invariant (fun _ _ he hs => he.tallied hs) s hs)
    (fun _ hs => ⟨⟨hs.shape.target, hs.shape.votes, hs.shape.ongoing⟩, hs.counted, hs.recorded⟩)
    l hs

/-- **A tally counts the recorded votes with the recorded delegations, and these are what is
delegated.** In every state that the chain can reach. -/
theorem tallied_of_run (cfg : Config A H) (rt : Runtime A H) {s : State A H} (hs : Genesis s)
    (steps : List (Step A H)) :
    let t := Machine.run (step cfg rt) s steps
    (∀ i status, t.referendumInfoOf.lookup i = some (.ongoing status) →
      status.tally = t.tallyOf i) ∧
    (∀ who, (t.voting who).delegations = t.delegationsTo who) := by
  intro t
  have ht : Tallied t :=
    Machine.run_invariant_always (P := Tallied) (fun _ l hs => hs.step rt l) hs.tallied steps
  exact ⟨ht.counted, ht.recorded⟩

/-- A vote, a delegation to its account that is then moved to another one, and that one's vote. -/
def delegatedVotes : List (Step ℕ ℕ) :=
  [.call (.externalPropose 1), .nextBlock, .nextBlock,
    .call (.vote 1 0 (.standard true .locked1x 10)), .call (.delegate 2 1 .locked2x 5),
    .call (.delegate 2 3 .locked1x 4), .call (.vote 3 0 (.standard false .none 10))]

theorem delegatedVotes_tally :
    (⟨10, 5, 24⟩ : Tally) =
      (Machine.run (step sampleConfig sampleRuntime) sampleGenesis delegatedVotes).tallyOf 0 :=
  (tallied_of_run sampleConfig sampleRuntime sampleGenesis_genesis delegatedVotes).1 0
    ⟨4, 1, .superMajorityApprove, 2, ⟨10, 5, 24⟩⟩ (by decide +kernel)

end Setheum.Democracy
