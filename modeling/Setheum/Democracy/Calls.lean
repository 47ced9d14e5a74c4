import Setheum.Democracy.Voting

/-!
# The calls of democracy

Proposals with their deposits, external proposals, preimages, and cancellations. A seconder names
a currency of its own: the deposit is reserved in that currency, and the record of the proposal,
which has one currency and one amount for all depositors, is written with it.
-/

set_option autoImplicit false

namespace Setheum.Democracy

open StorageMap

variable {A H : Type} [DecidableEq A] [DecidableEq H] (cfg : Config A H)

/-! ## Public proposals -/

/-- The price of a currency in Setter. -/
def State.relativePrice (s : State A H) (c : CurrencyId) : Option ℕ :=
  (s.price c).bind fun price => s.setterFixedPrice.bind fun setter =>
    FixedU128.checkedDiv price setter

/-- The minimum deposit of a proposal in a currency that has a price in Setter. The multiple is taken
exactly: past the balance type it is a minimum that no deposit meets, where the source overflows. -/
def State.relativeMinimum (s : State A H) (c : CurrencyId) (multiple : ℕ) : Option ℕ :=
  (s.relativePrice c).bind fun relativePrice =>
    (FixedU128.checkedMulInt relativePrice cfg.minimumDeposit).map fun base => base * multiple

/-- The minimum deposit of a proposal. -/
def State.minimumDeposit (s : State A H) (c : CurrencyId) : Option ℕ :=
  if c = cfg.nativeCurrencyId then s.relativeMinimum cfg c cfg.goldenMinimumDepositMultiple
  else if c = cfg.setterCurrencyId then
    some (cfg.minimumDeposit * cfg.setterMinimumDepositMultiple)
  else if c = cfg.dexCurrencyId then s.relativeMinimum cfg c cfg.silverMinimumDepositMultiple
  else some 0

/-- A proposal that was vetoed or blacklisted has to wait. -/
def ensureNotBlacklisted (s : State A H) (proposalHash : H) : DemocracyM A H Unit :=
  match s.blacklist.lookup proposalHash with
  | some (expiry, _) => Dispatch.ensure (expiry ≤ s.blockNumber) .ProposalBlacklisted
  | none => pure ()

/-- Propose a sensitive action to be taken. -/
def propose (who : A) (proposalHash : H) (currencyId : CurrencyId) (value : ℕ) :
    DemocracyM A H Unit := do
  Dispatch.ensure (currencyId ∈ cfg.governanceCurrencyIds) .InvalidCurrencyType
  let s ← get
  let minimum ← Dispatch.okOr (s.minimumDeposit cfg currencyId) .priceUnavailable
  Dispatch.ensure (minimum ≤ value) .ValueLow
  Dispatch.ensure (s.publicProps.length < cfg.maxProposals) .TooManyProposals
  ensureNotBlacklisted s proposalHash
  reserve cfg currencyId who value
  modify fun s =>
    { s with
      publicPropCount := s.publicPropCount + 1
      depositOf := s.depositOf.insert s.publicPropCount ⟨[who], currencyId, value⟩
      publicProps := s.publicProps ++ [(s.publicPropCount, proposalHash, who)] }

/-- Signals agreement with a particular proposal. -/
def second (who : A) (proposal : ℕ) (currencyId : CurrencyId) (secondsUpperBound : ℕ) :
    DemocracyM A H Unit := do
  Dispatch.ensure (currencyId ∈ cfg.governanceCurrencyIds) .InvalidCurrencyType
  let s ← get
  let deposit ← Dispatch.okOr (s.depositOf.lookup proposal) .ProposalMissing
  Dispatch.ensure (deposit.depositors.length ≤ secondsUpperBound) .WrongUpperBound
  reserve cfg currencyId who deposit.amount
  -- the currency written is that of this seconder
  modify fun s =>
    { s with
      depositOf := s.depositOf.insert proposal
        ⟨deposit.depositors ++ [who], currencyId, deposit.amount⟩ }

/-- Slash the deposits of everybody who backed a proposal. -/
def State.slashDepositors (s : State A H) (deposit : Deposit A) : State A H :=
  deposit.depositors.foldl (fun s d => s.slashReserved cfg deposit.currency d deposit.amount) s

/-- Take the deposits of a proposal, if there are any, and slash them. -/
def State.slashProposal (s : State A H) (propIndex : ℕ) : State A H :=
  match s.depositOf.lookup propIndex with
  | some deposit =>
      { s with depositOf := s.depositOf.erase propIndex }.slashDepositors cfg deposit
  | none => s

/-- Remove a proposal. -/
def cancelProposal (propIndex : ℕ) : DemocracyM A H Unit :=
  modify fun s =>
    { s with publicProps := s.publicProps.filter fun p => p.1 ≠ propIndex }.slashProposal cfg
      propIndex

/-- Clears all public proposals. -/
def clearPublicProposals : DemocracyM A H Unit :=
  modify fun s => { s with publicProps := [] }

/-! ## External proposals -/

def externalPropose (proposalHash : H) : DemocracyM A H Unit := do
  let s ← get
  Dispatch.ensure (s.nextExternal = none) .DuplicateProposal
  ensureNotBlacklisted s proposalHash
  set { s with nextExternal := some (proposalHash, .superMajorityApprove) }

def externalProposeMajority (proposalHash : H) : DemocracyM A H Unit :=
  modify fun s => { s with nextExternal := some (proposalHash, .simpleMajority) }

def externalProposeDefault (proposalHash : H) : DemocracyM A H Unit :=
  modify fun s => { s with nextExternal := some (proposalHash, .superMajorityAgainst) }

/-- Which of the two fast track origins a call comes with. -/
structure FastTrackOrigin where
  fastTrack : Bool
  instant : Bool

/-- Schedule the currently externally-proposed majority-carries referendum to be tabled
immediately. -/
def fastTrack (origin : FastTrackOrigin) (proposalHash : H) (votingPeriod delay : ℕ) :
    DemocracyM A H Unit := do
  let needsInstant := decide (votingPeriod < cfg.fastTrackVotingPeriod) || !origin.fastTrack
  Dispatch.ensure (needsInstant = true → origin.instant = true) .BadOrigin
  Dispatch.ensure (needsInstant = true → cfg.instantAllowed = true) .InstantNotAllowed
  let s ← get
  let (eProposalHash, threshold) ← Dispatch.okOr s.nextExternal .ProposalMissing
  Dispatch.ensure (threshold ≠ .superMajorityApprove) .NotSimpleMajority
  Dispatch.ensure (proposalHash = eProposalHash) .InvalidHash
  set ({ s with nextExternal := none }.injectReferendum (s.blockNumber + votingPeriod)
    proposalHash threshold delay)

/-- Veto and blacklist the external proposal hash. -/
def vetoExternal (who : A) (proposalHash : H) : DemocracyM A H Unit := do
  let s ← get
  let (eProposalHash, _) ← Dispatch.okOr s.nextExternal .NoProposal
  Dispatch.ensure (proposalHash = eProposalHash) .ProposalMissing
  let existingVetoers := ((s.blacklist.lookup proposalHash).map Prod.snd).getD []
  Dispatch.ensure (who ∉ existingVetoers) .AlreadyVetoed
  set { s with
    blacklist := s.blacklist.insert proposalHash
      (s.blockNumber + cfg.cooloffPeriod, existingVetoers ++ [who])
    nextExternal := none }

/-! ## Cancellations -/

/-- Schedule an emergency cancellation of a referendum. -/
def emergencyCancel (refIndex : ℕ) : DemocracyM A H Unit := do
  let status ← referendumStatus refIndex
  let s ← get
  Dispatch.ensure (status.proposalHash ∉ s.cancellations) .AlreadyCanceled
  set ({ s with
    cancellations := s.cancellations.insert status.proposalHash true }.internalCancelReferendum
      refIndex)

def cancelReferendum (refIndex : ℕ) : DemocracyM A H Unit :=
  modify fun s => s.internalCancelReferendum refIndex

/-- Remove the queued proposal with a hash, if there is one. -/
def State.removeQueued (s : State A H) (proposalHash : H) : State A H :=
  match s.publicProps.find? fun p => p.2.1 = proposalHash with
  | some (propIndex, _) =>
      { s with
        publicProps := s.publicProps.eraseP fun p => p.2.1 = proposalHash }.slashProposal cfg
          propIndex
  | none => s

/-- Cancel a referendum if it is ongoing and has the hash. -/
def State.cancelMatching (s : State A H) (proposalHash : H) (refIndex : ℕ) : State A H :=
  match s.referendumInfoOf.lookup refIndex with
  | some (.ongoing status) =>
      if status.proposalHash = proposalHash then s.internalCancelReferendum refIndex else s
  | _ => s

/-- Permanently place a proposal into the blacklist. -/
def blacklist (proposalHash : H) (maybeRefIndex : Option ℕ) : DemocracyM A H Unit :=
  modify fun s =>
    let s := { s with blacklist := s.blacklist.insert proposalHash (cfg.maxBlockNumber, []) }
    let s := s.removeQueued cfg proposalHash
    let s :=
      if s.nextExternal.map Prod.fst = some proposalHash then { s with nextExternal := none }
      else s
    maybeRefIndex.elim s (s.cancelMatching proposalHash)

/-! ## Preimages -/

/-- Register the preimage for an upcoming proposal. -/
def notePreimage (who : A) (currencyId : CurrencyId) (encodedProposal : List Byte) :
    DemocracyM A H Unit := do
  let proposalHash := cfg.hashing encodedProposal
  let s ← get
  Dispatch.ensure (proposalHash ∉ s.preimages) .DuplicatePreimage
  Dispatch.ensure (currencyId ∈ cfg.governanceCurrencyIds) .InvalidCurrencyType
  let deposit := encodedProposal.length * cfg.preimageByteDeposit
  reserve cfg currencyId who deposit
  modify fun s =>
    { s with
      preimages := s.preimages.insert proposalHash
        (.available ⟨encodedProposal, who, currencyId, deposit, s.blockNumber, none⟩) }

/-- Register the preimage for a proposal in the dispatch queue; no deposit is needed. -/
def noteImminentPreimage (who : A) (currencyId : CurrencyId) (encodedProposal : List Byte) :
    DemocracyM A H Unit := do
  let proposalHash := cfg.hashing encodedProposal
  let s ← get
  let status ← Dispatch.okOr (s.preimages.lookup proposalHash) .NotImminent
  let expiry ← Dispatch.okOr status.toMissingExpiry .DuplicatePreimage
  Dispatch.ensure (currencyId ∈ cfg.governanceCurrencyIds) .InvalidCurrencyType
  set { s with
    preimages := s.preimages.insert proposalHash
      (.available ⟨encodedProposal, who, currencyId, 0, s.blockNumber, some expiry⟩) }

def State.availablePreimage (s : State A H) (proposalHash : H) : Option (Preimage A) :=
  (s.preimages.lookup proposalHash).bind PreimageStatus.available?

/-- Remove an expired proposal preimage and collect the deposit. -/
def reapPreimage (who : A) (proposalHash : H) (proposalLenUpperBound : ℕ) :
    DemocracyM A H Unit := do
  let s ← get
  let preimage ← Dispatch.okOr (s.availablePreimage proposalHash) .PreimageMissing
  Dispatch.ensure (preimage.data.length ≤ proposalLenUpperBound) .WrongUpperBound
  let additional := if who = preimage.provider then 0 else cfg.enactmentPeriod
  Dispatch.ensure (preimage.since + cfg.votingPeriod + additional ≤ s.blockNumber) .TooEarly
  Dispatch.ensure (preimage.expiry.all (· < s.blockNumber) = true) .Imminent
  let repatriated := Reserves.repatriateFree cfg.rules preimage.provider who preimage.deposit
    (s.tokens preimage.currency)
  -- the outcome is dropped
  set { s.setTokens preimage.currency (repatriated.toOption.getD (s.tokens preimage.currency)) with
    preimages := s.preimages.erase proposalHash }

/-! ## All calls -/

/-- A call, except that of an enactment. -/
inductive Call (A H : Type)
  | propose (who : A) (proposalHash : H) (currencyId : CurrencyId) (value : ℕ)
  | second (who : A) (proposal : ℕ) (currencyId : CurrencyId) (secondsUpperBound : ℕ)
  | vote (who : A) (refIndex : ℕ) (vote : AccountVote)
  | emergencyCancel (refIndex : ℕ)
  | externalPropose (proposalHash : H)
  | externalProposeMajority (proposalHash : H)
  | externalProposeDefault (proposalHash : H)
  | fastTrack (origin : FastTrackOrigin) (proposalHash : H) (votingPeriod delay : ℕ)
  | vetoExternal (who : A) (proposalHash : H)
  | cancelReferendum (refIndex : ℕ)
  | delegate (who target : A) (conviction : Conviction) (balance : ℕ)
  | undelegate (who : A)
  | clearPublicProposals
  | notePreimage (who : A) (currencyId : CurrencyId) (encodedProposal : List Byte)
  | noteImminentPreimage (who : A) (currencyId : CurrencyId) (encodedProposal : List Byte)
  | reapPreimage (who : A) (proposalHash : H) (proposalLenUpperBound : ℕ)
  | unlock (target : A)
  | removeVote (who : A) (refIndex : ℕ)
  | removeOtherVote (who target : A) (refIndex : ℕ)
  | blacklist (proposalHash : H) (maybeRefIndex : Option ℕ)
  | cancelProposal (propIndex : ℕ)

def Call.call : Call A H → DemocracyM A H Unit
  | .propose who h c value => Democracy.propose cfg who h c value
  | .second who proposal c bound => Democracy.second cfg who proposal c bound
  | .vote who refIndex accountVote => tryVote cfg who refIndex accountVote
  | .emergencyCancel refIndex => Democracy.emergencyCancel refIndex
  | .externalPropose h => Democracy.externalPropose h
  | .externalProposeMajority h => Democracy.externalProposeMajority h
  | .externalProposeDefault h => Democracy.externalProposeDefault h
  | .fastTrack origin h votingPeriod delay => Democracy.fastTrack cfg origin h votingPeriod delay
  | .vetoExternal who h => Democracy.vetoExternal cfg who h
  | .cancelReferendum refIndex => Democracy.cancelReferendum refIndex
  | .delegate who target conviction balance => tryDelegate who target conviction balance
  | .undelegate who => tryUndelegate cfg who
  | .clearPublicProposals => Democracy.clearPublicProposals
  | .notePreimage who c data => Democracy.notePreimage cfg who c data
  | .noteImminentPreimage who c data => Democracy.noteImminentPreimage cfg who c data
  | .reapPreimage who h bound => Democracy.reapPreimage cfg who h bound
  | .unlock target => modify fun s => s.updateLock target
  | .removeVote who refIndex => tryRemoveVote cfg who refIndex .any
  | .removeOtherVote who target refIndex =>
      tryRemoveVote cfg target refIndex (if target = who then .any else .onlyExpired)
  | .blacklist h maybeRefIndex => Democracy.blacklist cfg h maybeRefIndex
  | .cancelProposal propIndex => Democracy.cancelProposal cfg propIndex

end Setheum.Democracy
