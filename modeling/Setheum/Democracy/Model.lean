import Setheum.Democracy.Types
import Setheum.Lib.Dispatch
import Setheum.Lib.FixedPoint
import Setheum.Lib.Reserves
import Setheum.Primitives.Currency

/-!
# Democracy: storages and configuration

Votes are counted and locked in one currency, deposits are reserved in one of several governance
currencies. The two are different pallets of the runtime, with issuances of their own. What an
enacted proposal does is a parameter, as are the hash of a preimage and the threshold functions.

The calls are modelled past the checks of their origins. The scheduler is left out: a scheduled
enactment is a call that may come at any time.
-/

set_option autoImplicit false

namespace Setheum.Democracy

open StorageMap

/-- A byte of an encoded proposal. -/
abbrev Byte := BitVec 8

/-- A noted preimage, with who noted it and the deposit for it. -/
structure Preimage (A : Type) where
  data : List Byte
  provider : A
  currency : CurrencyId
  deposit : ℕ
  since : ℕ
  expiry : Option ℕ
  deriving DecidableEq

inductive PreimageStatus (A : Type)
  | missing (expiry : ℕ)
  | available (preimage : Preimage A)
  deriving DecidableEq

/-- The preimage if it is available. -/
def PreimageStatus.available? {A : Type} : PreimageStatus A → Option (Preimage A)
  | missing _ => none
  | available preimage => some preimage

def PreimageStatus.toMissingExpiry {A : Type} : PreimageStatus A → Option ℕ
  | missing expiry => some expiry
  | available _ => none

inductive Error
  | ValueLow
  | ProposalMissing
  | AlreadyCanceled
  | DuplicateProposal
  | ProposalBlacklisted
  | NotSimpleMajority
  | InvalidHash
  | NoProposal
  | AlreadyVetoed
  | DuplicatePreimage
  | NotImminent
  | TooEarly
  | Imminent
  | PreimageMissing
  | ReferendumInvalid
  | PreimageInvalid
  | NoneWaiting
  | NotVoter
  | NoPermission
  | BadOrigin
  | AlreadyDelegating
  | InsufficientFunds
  | NotDelegating
  | VotesExist
  | InstantNotAllowed
  | Nonsense
  | WrongUpperBound
  | MaxVotesReached
  | InvalidCurrencyType
  | TooManyProposals
  | Underflow
  | priceUnavailable
  | reserves (e : Reserves.Error)
  deriving DecidableEq, Repr

/-- The deposit of a public proposal: who backs it, in which currency and with how much each. -/
structure Deposit (A : Type) where
  depositors : List A
  currency : CurrencyId
  amount : ℕ
  deriving DecidableEq

/-- The storages of the pallet and those it uses. -/
structure State (A H : Type) where
  blockNumber : ℕ
  -- the voting currency
  freeBalance : A → ℕ
  issuance : ℕ
  lock : A → ℕ
  -- the governance currencies
  tokens : CurrencyId → Reserves A
  tokenIssuance : CurrencyId → ℕ
  setterFixedPrice : Option ℕ
  price : CurrencyId → Option ℕ
  -- the pallet's own
  publicPropCount : ℕ
  publicProps : List (ℕ × H × A)
  depositOf : Map ℕ (Deposit A)
  preimages : Map H (PreimageStatus A)
  referendumCount : ℕ
  lowestUnbaked : ℕ
  referendumInfoOf : Map ℕ (ReferendumInfo H)
  votingOf : Map A (Voting A)
  lastTabledWasExternal : Bool
  nextExternal : Option (H × VoteThreshold)
  blacklist : Map H (ℕ × List A)
  cancellations : Map H Bool

structure Config (A H : Type) where
  enactmentPeriod : ℕ
  launchPeriod : ℕ
  votingPeriod : ℕ
  fastTrackVotingPeriod : ℕ
  cooloffPeriod : ℕ
  governanceCurrencyIds : List CurrencyId
  nativeCurrencyId : CurrencyId
  dexCurrencyId : CurrencyId
  setterCurrencyId : CurrencyId
  minimumDeposit : ℕ
  goldenMinimumDepositMultiple : ℕ
  setterMinimumDepositMultiple : ℕ
  silverMinimumDepositMultiple : ℕ
  instantAllowed : Bool
  preimageByteDeposit : ℕ
  maxVotes : ℕ
  maxProposals : ℕ
  maxBlockNumber : ℕ
  rules : Reserves.Rules A
  /-- Where slashed deposits go. -/
  treasury : A
  hashing : List Byte → H
  approved : VoteThreshold → Tally → ℕ → Bool

abbrev DemocracyM (A H : Type) := Dispatch Error (State A H)

variable {A H : Type} [DecidableEq A] [DecidableEq H] (cfg : Config A H)

/-! ## Deposits -/

/-- Change the balances in one governance currency. -/
def State.setTokens (s : State A H) (c : CurrencyId) (r : Reserves A) : State A H :=
  { s with tokens := fun c' => if c' = c then r else s.tokens c' }

omit [DecidableEq H] in
def reserve (c : CurrencyId) (who : A) (amount : ℕ) : DemocracyM A H Unit :=
  Dispatch.onComponent (fun s => s.tokens c) (fun r s => s.setTokens c r) .reserves
    (Reserves.reserve cfg.rules who amount)

omit [DecidableEq H] in
def State.unreserve (s : State A H) (c : CurrencyId) (who : A) (amount : ℕ) : State A H :=
  s.setTokens c (Reserves.unreserve who amount (s.tokens c))

omit [DecidableEq H] in
/-- A slashed deposit goes to the treasury. -/
def State.slashReserved (s : State A H) (c : CurrencyId) (who : A) (amount : ℕ) : State A H :=
  s.setTokens c (Reserves.slashReserved who cfg.treasury amount (s.tokens c))

/-! ## Referenda -/

def referendumStatus (refIndex : ℕ) : DemocracyM A H (ReferendumStatus H) := do
  let s ← get
  match s.referendumInfoOf.lookup refIndex with
  | some (.ongoing status) => pure status
  | _ => throw .ReferendumInvalid

/-- Start a referendum. -/
def State.injectReferendum (s : State A H) (endBlock : ℕ) (proposalHash : H)
    (threshold : VoteThreshold) (delay : ℕ) : State A H :=
  { s with
    referendumCount := s.referendumCount + 1
    referendumInfoOf := s.referendumInfoOf.insert s.referendumCount
      (.ongoing ⟨endBlock, proposalHash, threshold, delay, 0⟩) }

def State.internalCancelReferendum (s : State A H) (refIndex : ℕ) : State A H :=
  { s with referendumInfoOf := s.referendumInfoOf.erase refIndex }

end Setheum.Democracy
