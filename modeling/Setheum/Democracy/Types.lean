import Setheum.Lib.StorageMap

/-!
# Votes, delegations and locks of democracy

The types of the standard democracy pallet that this one is built on. A vote counts with its
conviction: a tenth of the balance without one, or one to six times the balance for a lock of one
to thirty-two enactment periods. Amounts are natural numbers, so no addition saturates.

* `Tally.remove_add` — a vote that was added can be removed.
* `PriorLock.le_accumulate` — accumulating never shortens or lowers a lock.
-/

set_option autoImplicit false

namespace Setheum.Democracy

open StorageMap

/-- How long the funds of a vote stay locked once it is over. -/
inductive Conviction
  | none
  | locked1x
  | locked2x
  | locked3x
  | locked4x
  | locked5x
  | locked6x
  deriving DecidableEq, Repr

/-- The amount of time, in enactment periods. -/
def Conviction.lockPeriods : Conviction → ℕ
  | none => 0
  | locked1x => 1
  | locked2x => 2
  | locked3x => 4
  | locked4x => 8
  | locked5x => 16
  | locked6x => 32

/-- Voting power and the capital behind it. -/
@[ext]
structure Delegations where
  votes : ℕ
  capital : ℕ
  deriving DecidableEq, Repr

namespace Delegations

instance : Zero Delegations := ⟨⟨0, 0⟩⟩

instance : Add Delegations := ⟨fun d e => ⟨d.votes + e.votes, d.capital + e.capital⟩⟩

/-- `saturating_sub` in both components. -/
instance : Sub Delegations := ⟨fun d e => ⟨d.votes - e.votes, d.capital - e.capital⟩⟩

@[simp] theorem zero_votes : (0 : Delegations).votes = 0 := rfl

@[simp] theorem zero_capital : (0 : Delegations).capital = 0 := rfl

@[simp] theorem add_votes (d e : Delegations) : (d + e).votes = d.votes + e.votes := rfl

@[simp] theorem add_capital (d e : Delegations) : (d + e).capital = d.capital + e.capital := rfl

@[simp] theorem sub_votes (d e : Delegations) : (d - e).votes = d.votes - e.votes := rfl

@[simp] theorem sub_capital (d e : Delegations) : (d - e).capital = d.capital - e.capital := rfl

instance : AddCommMonoid Delegations where
  add_assoc d e f := by ext <;> simp [Nat.add_assoc]
  zero_add d := by ext <;> simp
  add_zero d := by ext <;> simp
  add_comm d e := by ext <;> simp [Nat.add_comm]
  nsmul := nsmulRec

theorem add_sub_cancel_right (d e : Delegations) : d + e - e = d := by ext <;> simp

theorem add_right_cancel {d d' e : Delegations} (h : d + e = d' + e) : d = d' := by
  rw [← add_sub_cancel_right d e, h, add_sub_cancel_right]

end Delegations

/-- The votes of a balance with a conviction. -/
def Conviction.votes (c : Conviction) (capital : ℕ) : Delegations :=
  match c with
  | none => ⟨capital / 10, capital⟩
  | locked1x => ⟨capital, capital⟩
  | locked2x => ⟨2 * capital, capital⟩
  | locked3x => ⟨3 * capital, capital⟩
  | locked4x => ⟨4 * capital, capital⟩
  | locked5x => ⟨5 * capital, capital⟩
  | locked6x => ⟨6 * capital, capital⟩

/-- A vote for or against with a conviction, or a balance split between the two. -/
inductive AccountVote
  | standard (aye : Bool) (conviction : Conviction) (balance : ℕ)
  | split (aye nay : ℕ)
  deriving DecidableEq, Repr

namespace AccountVote

/-- `Some(aye)` if this is a standard vote. -/
def asStandard : AccountVote → Option Bool
  | standard aye _ _ => some aye
  | split _ _ => none

def balance : AccountVote → ℕ
  | standard _ _ balance => balance
  | split aye nay => aye + nay

/-- The lock periods and the balance that stay locked if the referendum ended like this. -/
def lockedIf (approved : Bool) : AccountVote → Option (ℕ × ℕ)
  | standard aye conviction balance =>
      if aye = approved then some (conviction.lockPeriods, balance) else none
  | split _ _ => none

end AccountVote

/-! ## Tallies -/

/-- The votes of a referendum. -/
@[ext]
structure Tally where
  ayes : ℕ
  nays : ℕ
  turnout : ℕ
  deriving DecidableEq, Repr

namespace Tally

instance : Zero Tally := ⟨⟨0, 0, 0⟩⟩

instance : Add Tally := ⟨fun t u => ⟨t.ayes + u.ayes, t.nays + u.nays, t.turnout + u.turnout⟩⟩

/-- `saturating_sub` in every component. -/
instance : Sub Tally := ⟨fun t u => ⟨t.ayes - u.ayes, t.nays - u.nays, t.turnout - u.turnout⟩⟩

@[simp] theorem zero_ayes : (0 : Tally).ayes = 0 := rfl

@[simp] theorem zero_nays : (0 : Tally).nays = 0 := rfl

@[simp] theorem zero_turnout : (0 : Tally).turnout = 0 := rfl

@[simp] theorem add_ayes (t u : Tally) : (t + u).ayes = t.ayes + u.ayes := rfl

@[simp] theorem add_nays (t u : Tally) : (t + u).nays = t.nays + u.nays := rfl

@[simp] theorem add_turnout (t u : Tally) : (t + u).turnout = t.turnout + u.turnout := rfl

@[simp] theorem sub_ayes (t u : Tally) : (t - u).ayes = t.ayes - u.ayes := rfl

@[simp] theorem sub_nays (t u : Tally) : (t - u).nays = t.nays - u.nays := rfl

@[simp] theorem sub_turnout (t u : Tally) : (t - u).turnout = t.turnout - u.turnout := rfl

instance : AddCommMonoid Tally where
  add_assoc t u v := by ext <;> simp [Nat.add_assoc]
  zero_add t := by ext <;> simp
  add_zero t := by ext <;> simp
  add_comm t u := by ext <;> simp [Nat.add_comm]
  nsmul := nsmulRec

theorem add_sub_cancel_right (t u : Tally) : t + u - u = t := by ext <;> simp

theorem add_right_cancel {t t' u : Tally} (h : t + u = t' + u) : t = t' := by
  rw [← add_sub_cancel_right t u, h, add_sub_cancel_right]

end Tally

/-- Voting power on one side. -/
def Delegations.toward (d : Delegations) (aye : Bool) : Tally :=
  if aye then ⟨d.votes, 0, d.capital⟩ else ⟨0, d.votes, d.capital⟩

/-- What a vote adds to a tally. -/
def AccountVote.tally : AccountVote → Tally
  | standard aye conviction balance => (conviction.votes balance).toward aye
  | split aye nay =>
      let aye := Conviction.none.votes aye
      let nay := Conviction.none.votes nay
      ⟨aye.votes, nay.votes, aye.capital + nay.capital⟩

namespace Tally

/-- Add an account's vote. -/
def add (vote : AccountVote) (t : Tally) : Tally := t + vote.tally

/-- Remove an account's vote, if it is in there. -/
def remove (vote : AccountVote) (t : Tally) : Option Tally :=
  if vote.tally.ayes ≤ t.ayes ∧ vote.tally.nays ≤ t.nays ∧ vote.tally.turnout ≤ t.turnout then
    some (t - vote.tally)
  else none

/-- Increment some amount of votes. -/
def increase (approve : Bool) (delegations : Delegations) (t : Tally) : Tally :=
  t + delegations.toward approve

/-- Decrement some amount of votes. -/
def reduce (approve : Bool) (delegations : Delegations) (t : Tally) : Tally :=
  t - delegations.toward approve

/-- A vote that was added can be removed. -/
theorem remove_add (vote : AccountVote) (t : Tally) : remove vote (t + vote.tally) = some t := by
  unfold remove
  rw [if_pos ⟨Nat.le_add_left _ _, Nat.le_add_left _ _, Nat.le_add_left _ _⟩,
    add_sub_cancel_right]

end Tally

/-! ## Locks -/

/-- A lock left behind by votes and delegations that are over: until when, and on how much. -/
structure PriorLock where
  expiry : ℕ
  amount : ℕ
  deriving DecidableEq, Repr

namespace PriorLock

instance : Zero PriorLock := ⟨⟨0, 0⟩⟩

/-- Accumulate an additional lock. -/
def accumulate (l : PriorLock) (expiry amount : ℕ) : PriorLock :=
  ⟨max l.expiry expiry, max l.amount amount⟩

def locked (l : PriorLock) : ℕ := l.amount

/-- Drop the lock when its time is over. -/
def rejig (l : PriorLock) (now : ℕ) : PriorLock := if l.expiry ≤ now then 0 else l

/-- Accumulating never shortens or lowers a lock. -/
theorem le_accumulate (l : PriorLock) (expiry amount : ℕ) :
    l.expiry ≤ (l.accumulate expiry amount).expiry ∧
      l.amount ≤ (l.accumulate expiry amount).amount :=
  ⟨Nat.le_max_left _ _, Nat.le_max_left _ _⟩

/-- What is accumulated is covered. -/
theorem accumulate_le (l : PriorLock) (expiry amount : ℕ) :
    expiry ≤ (l.accumulate expiry amount).expiry ∧
      amount ≤ (l.accumulate expiry amount).amount :=
  ⟨Nat.le_max_right _ _, Nat.le_max_right _ _⟩

theorem rejig_of_lt {l : PriorLock} {now : ℕ} (h : now < l.expiry) : l.rejig now = l :=
  if_neg (Nat.not_le.mpr h)

end PriorLock

/-- What an account's voting power is used for. -/
inductive Voting (A : Type)
  | direct (votes : Map ℕ AccountVote) (delegations : Delegations) (prior : PriorLock)
  | delegating (balance : ℕ) (target : A) (conviction : Conviction) (delegations : Delegations)
      (prior : PriorLock)

namespace Voting

variable {A : Type}

/-- No votes, nothing delegated, nothing locked. -/
def default : Voting A := direct ∅ 0 0

def delegations : Voting A → Delegations
  | direct _ delegations _ => delegations
  | delegating _ _ _ delegations _ => delegations

def prior : Voting A → PriorLock
  | direct _ _ prior => prior
  | delegating _ _ _ _ prior => prior

def setCommon (voting : Voting A) (delegations : Delegations) (prior : PriorLock) : Voting A :=
  match voting with
  | direct votes _ _ => direct votes delegations prior
  | delegating balance target conviction _ _ =>
      delegating balance target conviction delegations prior

def setDelegations (voting : Voting A) (delegations : Delegations) : Voting A :=
  voting.setCommon delegations voting.prior

def rejig (voting : Voting A) (now : ℕ) : Voting A :=
  voting.setCommon voting.delegations (voting.prior.rejig now)

/-- The amount of balance that must remain locked. -/
def lockedBalance : Voting A → ℕ
  | direct votes _ prior => votes.entries.foldl (fun a e => max a e.2.balance) prior.locked
  | delegating balance _ _ _ prior => max balance prior.locked

@[simp] theorem setCommon_delegations (voting : Voting A) (d : Delegations) (p : PriorLock) :
    (voting.setCommon d p).delegations = d := by
  cases voting <;> rfl

@[simp] theorem setCommon_prior (voting : Voting A) (d : Delegations) (p : PriorLock) :
    (voting.setCommon d p).prior = p := by
  cases voting <;> rfl

theorem prior_le_lockedBalance (voting : Voting A) :
    voting.prior.amount ≤ voting.lockedBalance := by
  cases voting with
  | direct votes delegations prior =>
      have hfold : ∀ (l : List (Sigma fun _ : ℕ => AccountVote)) (a : ℕ),
          a ≤ l.foldl (fun a e => max a e.2.balance) a := by
        intro l
        induction l with
        | nil => exact fun a => le_rfl
        | cons e l ih => exact fun a => (Nat.le_max_left _ _).trans (ih _)
      exact hfold votes.entries prior.amount
  | delegating balance target conviction delegations prior => exact Nat.le_max_right _ _

end Voting

/-! ## Referenda -/

/-- How a referendum is decided. -/
inductive VoteThreshold
  | superMajorityApprove
  | superMajorityAgainst
  | simpleMajority
  deriving DecidableEq, Repr

/-- An ongoing referendum. -/
structure ReferendumStatus (H : Type) where
  endBlock : ℕ
  proposalHash : H
  threshold : VoteThreshold
  delay : ℕ
  tally : Tally
  deriving DecidableEq

inductive ReferendumInfo (H : Type)
  | ongoing (status : ReferendumStatus H)
  | finished (approved : Bool) (endBlock : ℕ)
  deriving DecidableEq

/-- When a vote may be taken back. -/
inductive UnvoteScope
  | any
  | onlyExpired
  deriving DecidableEq, Repr

end Setheum.Democracy
