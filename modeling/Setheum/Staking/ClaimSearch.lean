import Setheum.Lib.BinarySearch
import Setheum.Staking.Aging

/-!
# How a payout looks its era up

A payout looks its era up among the claims of the ledger by a binary search, and inserts it where
the search ends. That needs the claims to be in order, which nothing checks. They are, in every
state of every run: so the search misses no claim, and a payout does what it does if it goes through
all of them.

* `searching_doPayoutStakers` — the search agrees with the list where the claims are in order.
* `searching_refines` — a chain that searches runs as the chain of `step` does.
-/

set_option autoImplicit false

namespace Setheum.Staking

open BinarySearch

variable {A : Type} [DecidableEq A]

/-! ## The search -/

namespace Searching

variable (cfg : Config A)

/-- `do_payout_stakers` with the search in it. -/
def doPayoutStakers (validatorStash : A) (era : ℕ) : StakingM A Unit := do
  let s ← get
  let currentEra ← Dispatch.okOr s.currentEra (.module .InvalidEraToReward)
  Dispatch.ensure (era ≤ currentEra ∧ currentEra - s.historyDepth ≤ era)
    (.module .InvalidEraToReward)
  let eraPayout ← Dispatch.okOr (s.erasValidatorReward era) (.module .InvalidEraToReward)
  let controller ← Dispatch.okOr (s.bonded validatorStash) (.module .NotStash)
  let ledger ← Dispatch.okOr (s.ledger controller) (.module .NotController)
  let claimedRewards ←
    match binarySearch (retainedRewards s ledger) era with
    | .ok _ => throw (.module .AlreadyClaimed)
    | .error pos => pure ((retainedRewards s ledger).insertIdx pos era)
  modify fun t => { t with
    ledger := Function.update t.ledger controller (some { ledger with
      claimedRewards := claimedRewards }) }
  modify fun t => (paymentsOf s validatorStash ledger.stash era eraPayout).foldl
    (makePayout cfg) t

def payoutStakers (origin : Origin A) (validatorStash : A) (era : ℕ) : StakingM A Unit := do
  let _ ← ensureSigned origin
  doPayoutStakers cfg validatorStash era

def dispatch (origin : Origin A) : Call A → StakingM A Unit
  | .payoutStakers validatorStash era => payoutStakers cfg origin validatorStash era
  | c => Staking.dispatch cfg origin c

def step (s : State A) : Act A → State A
  | .call origin c => (dispatch cfg origin c).commit s
  | act => Staking.step cfg s act

end Searching

/-! ## Where the claims are in order -/

variable {cfg : Config A} {s : State A}

theorem searching_doPayoutStakers (h : ClaimsSorted s) (validatorStash : A) (era : ℕ) :
    (Searching.doPayoutStakers cfg validatorStash era).run s
      = (doPayoutStakers cfg validatorStash era).run s := by
  unfold Searching.doPayoutStakers doPayoutStakers
  rw [Dispatch.run_get_bind, Dispatch.run_get_bind]
  refine Dispatch.run_bind_congr fun currentEra _ hrun => ?_
  obtain ⟨-, rfl⟩ := Dispatch.run_okOr_ok.mp hrun
  refine Dispatch.run_bind_congr fun _ _ hrun => ?_
  obtain ⟨-, rfl⟩ := Dispatch.run_ensure_ok.mp hrun
  refine Dispatch.run_bind_congr fun eraPayout _ hrun => ?_
  obtain ⟨-, rfl⟩ := Dispatch.run_okOr_ok.mp hrun
  refine Dispatch.run_bind_congr fun controller _ hrun => ?_
  obtain ⟨-, rfl⟩ := Dispatch.run_okOr_ok.mp hrun
  refine Dispatch.run_bind_congr fun ledger _ hrun => ?_
  obtain ⟨hledger, rfl⟩ := Dispatch.run_okOr_ok.mp hrun
  have hsorted : (retainedRewards s ledger).Pairwise (· < ·) :=
    (h controller ledger hledger).filter _
  rcases binarySearch_cases hsorted era with ⟨hmem, i, hsearch⟩ | ⟨hmem, i, hsearch, hinsert⟩
  · rw [hsearch, Dispatch.ensure, if_neg (not_not.mpr hmem)]
    rfl
  · rw [hsearch, Dispatch.ensure, if_pos hmem, ← hinsert]
    rfl

/-- **The result of a call is that of the search.** -/
theorem searching_dispatch (h : ClaimsSorted s) (origin : Origin A) (c : Call A) :
    (Searching.dispatch cfg origin c).run s = (dispatch cfg origin c).run s := by
  cases c with
  | payoutStakers validatorStash era =>
      cases origin with
      | root => rfl
      | signed who => exact searching_doPayoutStakers h validatorStash era
  | _ => rfl

theorem searching_step (h : ClaimsSorted s) (act : Act A) :
    Searching.step cfg s act = step cfg s act := by
  cases act with
  | call origin c =>
      show Dispatch.commit _ s = Dispatch.commit _ s
      unfold Dispatch.commit
      rw [searching_dispatch h origin c]
  | _ => rfl

/-- **A chain that searches runs as one that looks through the claims**, call by call, since the
claims are in strict order in every state of every run. -/
theorem searching_refines (hs : Genesis s) (acts : List (Act A)) :
    Machine.run (Searching.step cfg) s acts = Machine.run (step cfg) s acts ∧
      ClaimsSorted (Machine.run (Searching.step cfg) s acts) ∧
      ∀ origin c, (Searching.dispatch cfg origin c).run (Machine.run (Searching.step cfg) s acts)
        = (dispatch cfg origin c).run (Machine.run (step cfg) s acts) := by
  have hrun : Machine.run (Searching.step cfg) s acts = Machine.run (step cfg) s acts :=
    Machine.run_congr (P := ClaimsSorted) (fun t act ht => ht.step cfg act)
      (fun t act ht => searching_step ht act) hs.claimsSorted acts
  have hsorted : ClaimsSorted (Machine.run (step cfg) s acts) :=
    Machine.run_invariant_always (fun t act ht => ht.step cfg act) hs.claimsSorted acts
  rw [hrun]
  exact ⟨rfl, hsorted, fun origin c => searching_dispatch hsorted origin c⟩

/-- A validator earns points in two eras, and the later one is claimed first. -/
def claimedBackwards : List (Act ℕ) :=
  [.call (.signed 1) (.bond 2 1000 .Stash), .genesisSessions sampleElection sampleElection,
    .onFinalize 1000, .rewardByIds [(1, 20)], .rotateSession 4000 sampleElection,
    .onFinalize 5000, .rewardByIds [(1, 20)], .rotateSession 8000 sampleElection,
    .call (.signed 3) (.payoutStakers 1 1), .call (.signed 3) (.payoutStakers 1 0)]

theorem searching_claimedBackwards :
    ((Machine.run (step (sampleConfig 4032 144000 fun _ _ eraDuration => eraDuration))
      sampleGenesis claimedBackwards).ledger 2).map StakingLedger.claimedRewards = some [0, 1] := by
  rw [← (searching_refines sampleGenesis_genesis claimedBackwards).1]
  decide +kernel

end Setheum.Staking
