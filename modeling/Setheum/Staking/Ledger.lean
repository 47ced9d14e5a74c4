import Mathlib.Algebra.BigOperators.Group.List.Basic
import Mathlib.Algebra.Order.BigOperators.Group.List
import Mathlib.Algebra.Order.Ring.Nat
import Mathlib.Data.List.Basic
import Mathlib.Order.Basic
import Mathlib.Data.Nat.Basic

/-!
# The ledger of a bonded stash

What a stash has at stake and what is on its way out of the staking system, and the three
functions that rewrite a ledger: `consolidateUnlocked` drops the chunks whose era has come,
`rebond` takes the latest chunks back and `slash` eats into the active stake and then into the
chunks that unlock first.

* `WellFormed` — the total is what is active and unlocking, and the chunks are in the order of
  their eras.
* `WellFormed.consolidateUnlocked`, `WellFormed.rebond`, `WellFormed.slash` — all three keep it.
-/

set_option autoImplicit false

namespace Setheum.Staking

/-- `MAX_UNLOCKING_CHUNKS`. -/
def maxUnlockingChunks : ℕ := 32

/-- Funds that leave the staking system at the start of an era. -/
structure UnlockChunk where
  value : ℕ
  era : ℕ
  deriving DecidableEq, Repr

structure StakingLedger (A : Type) where
  stash : A
  total : ℕ
  active : ℕ
  unlocking : List UnlockChunk
  claimedRewards : List ℕ
  deriving DecidableEq

/-- The funds in a list of chunks. -/
def unlockingValue (chunks : List UnlockChunk) : ℕ := (chunks.map UnlockChunk.value).sum

namespace StakingLedger

variable {A : Type}

/-- Remove the chunks that are due and their funds from the total. -/
def consolidateUnlocked (l : StakingLedger A) (currentEra : ℕ) : StakingLedger A :=
  { l with
    total := l.unlocking.foldl
      (fun total chunk => if currentEra < chunk.era then total else total - chunk.value) l.total
    unlocking := l.unlocking.filter fun chunk => currentEra < chunk.era }

/-- The loop of `rebond`, the latest chunk first: the chunks that stay and the active funds. -/
def rebondLoop (value : ℕ) : List UnlockChunk → ℕ → ℕ → List UnlockChunk × ℕ
  | [], _, active => ([], active)
  | last :: chunks, unlockingBalance, active =>
      if unlockingBalance + last.value ≤ value then
        if value ≤ unlockingBalance + last.value then (chunks, active + last.value)
        else rebondLoop value chunks (unlockingBalance + last.value) (active + last.value)
      else
        -- only a part of this chunk is needed, and the loop ends
        ({ last with value := last.value - (value - unlockingBalance) } :: chunks,
          active + (value - unlockingBalance))

/-- Take funds that are being unlocked back into the active stake. -/
def rebond (l : StakingLedger A) (value : ℕ) : StakingLedger A :=
  { l with
    unlocking := (rebondLoop value l.unlocking.reverse 0 l.active).1.reverse
    active := (rebondLoop value l.unlocking.reverse 0 l.active).2 }

/-- `slash_out_of`: the total, the target and the value still to be slashed after slashing one
target. A remainder of at most the minimum balance goes too. -/
def slashOutOf (minimumBalance total target value : ℕ) : ℕ × ℕ × ℕ :=
  if min value target = 0 then (total, target, value)
  else if target - min value target ≤ minimumBalance then
    (total - (min value target + (target - min value target)), 0,
      value + (target - min value target) - (min value target + (target - min value target)))
  else (total - min value target, target - min value target, value - min value target)

/-- Slash one chunk after the other, until one is not fully consumed: the chunks that stay and
the total. -/
def slashChunks (minimumBalance : ℕ) : List UnlockChunk → ℕ → ℕ → List UnlockChunk × ℕ
  | [], total, _ => ([], total)
  | chunk :: chunks, total, value =>
      if (slashOutOf minimumBalance total chunk.value value).2.1 = 0 then
        slashChunks minimumBalance chunks (slashOutOf minimumBalance total chunk.value value).1
          (slashOutOf minimumBalance total chunk.value value).2.2
      else
        ({ chunk with value := (slashOutOf minimumBalance total chunk.value value).2.1 } :: chunks,
          (slashOutOf minimumBalance total chunk.value value).1)

/-- Slash the active funds and then the chunks, the one closest to unlocking first. -/
def slash (l : StakingLedger A) (value minimumBalance : ℕ) : StakingLedger A :=
  let fromActive := slashOutOf minimumBalance l.total l.active value
  let fromChunks := slashChunks minimumBalance l.unlocking fromActive.1 fromActive.2.2
  { l with active := fromActive.2.1, unlocking := fromChunks.1, total := fromChunks.2 }

/-- The amount actually slashed. -/
def slashed (l : StakingLedger A) (value minimumBalance : ℕ) : ℕ :=
  l.total - (l.slash value minimumBalance).total

@[simp] theorem consolidateUnlocked_stash (l : StakingLedger A) (currentEra : ℕ) :
    (l.consolidateUnlocked currentEra).stash = l.stash := rfl

@[simp] theorem rebond_stash (l : StakingLedger A) (value : ℕ) :
    (l.rebond value).stash = l.stash := rfl

@[simp] theorem slash_stash (l : StakingLedger A) (value minimumBalance : ℕ) :
    (l.slash value minimumBalance).stash = l.stash := rfl

@[simp] theorem consolidateUnlocked_claimedRewards (l : StakingLedger A) (currentEra : ℕ) :
    (l.consolidateUnlocked currentEra).claimedRewards = l.claimedRewards := rfl

@[simp] theorem rebond_claimedRewards (l : StakingLedger A) (value : ℕ) :
    (l.rebond value).claimedRewards = l.claimedRewards := rfl

@[simp] theorem slash_claimedRewards (l : StakingLedger A) (value minimumBalance : ℕ) :
    (l.slash value minimumBalance).claimedRewards = l.claimedRewards := rfl

/-! ## Well-formed ledgers -/

/-- The total is what is active and what is unlocking, and the chunks are few, none is empty, they
are in the order of their eras, and none unlocks after the horizon. -/
structure WellFormed (horizon : ℕ) (l : StakingLedger A) : Prop where
  total_eq : l.total = l.active + unlockingValue l.unlocking
  sorted : (l.unlocking.map UnlockChunk.era).Pairwise (· ≤ ·)
  length_le : l.unlocking.length ≤ maxUnlockingChunks
  era_le : ∀ era ∈ l.unlocking.map UnlockChunk.era, era ≤ horizon
  value_pos : ∀ chunk ∈ l.unlocking, 0 < chunk.value

variable {horizon : ℕ} {l : StakingLedger A}

theorem WellFormed.mono {horizon' : ℕ} (hl : l.WellFormed horizon) (hle : horizon ≤ horizon') :
    l.WellFormed horizon' where
  total_eq := hl.total_eq
  sorted := hl.sorted
  length_le := hl.length_le
  era_le era hera := (hl.era_le era hera).trans hle
  value_pos := hl.value_pos

/-- A ledger whose chunks lost some and whose funds still add up is well formed. -/
theorem WellFormed.of_sublist {l' : StakingLedger A} (hl : l.WellFormed horizon)
    (heras : (l'.unlocking.map UnlockChunk.era).Sublist (l.unlocking.map UnlockChunk.era))
    (hpos : ∀ chunk ∈ l'.unlocking, 0 < chunk.value)
    (htotal : l'.total = l'.active + unlockingValue l'.unlocking) : l'.WellFormed horizon where
  total_eq := htotal
  sorted := hl.sorted.sublist heras
  length_le := by
    have hlength : l'.unlocking.length ≤ l.unlocking.length := by
      simpa using heras.length_le
    exact hlength.trans hl.length_le
  era_le era hera := hl.era_le era (heras.subset hera)
  value_pos := hpos

private theorem foldl_consolidate (currentEra : ℕ) (chunks : List UnlockChunk) (total : ℕ) :
    chunks.foldl
        (fun total chunk => if currentEra < chunk.era then total else total - chunk.value) total
      = total - unlockingValue (chunks.filter fun chunk => ¬ currentEra < chunk.era) := by
  induction chunks generalizing total with
  | nil => simp [unlockingValue]
  | cons chunk chunks ih =>
      rw [List.foldl_cons, ih]
      by_cases hera : currentEra < chunk.era
      · simp [hera]
      · have hdue : chunk.era ≤ currentEra := Nat.le_of_not_lt hera
        simp [hera, hdue, unlockingValue, Nat.sub_sub]

private theorem unlockingValue_filter (currentEra : ℕ) (chunks : List UnlockChunk) :
    unlockingValue (chunks.filter fun chunk => currentEra < chunk.era)
        + unlockingValue (chunks.filter fun chunk => ¬ currentEra < chunk.era)
      = unlockingValue chunks := by
  induction chunks with
  | nil => rfl
  | cons chunk chunks ih =>
      by_cases hera : currentEra < chunk.era
      · have hkept : ¬ chunk.era ≤ currentEra := Nat.not_le_of_lt hera
        simp [hera, hkept, unlockingValue] at ih ⊢
        omega
      · have hdue : chunk.era ≤ currentEra := Nat.le_of_not_lt hera
        simp [hera, hdue, unlockingValue] at ih ⊢
        omega

theorem WellFormed.consolidateUnlocked (hl : l.WellFormed horizon) (currentEra : ℕ) :
    (l.consolidateUnlocked currentEra).WellFormed horizon := by
  refine hl.of_sublist ?_ ?_ ?_
  · exact List.filter_sublist.map UnlockChunk.era
  · intro chunk hchunk
    exact hl.value_pos chunk (List.mem_of_mem_filter hchunk)
  · have hsplit := unlockingValue_filter currentEra l.unlocking
    have htotal := hl.total_eq
    simp only [StakingLedger.consolidateUnlocked, foldl_consolidate]
    omega

/-- What `rebond` makes active leaves the chunks, which lose only the latest of them. -/
private theorem rebondLoop_spec (value : ℕ) (chunks : List UnlockChunk) :
    ∀ unlockingBalance active, unlockingBalance ≤ value →
      (rebondLoop value chunks unlockingBalance active).2
          + unlockingValue (rebondLoop value chunks unlockingBalance active).1
        = active + unlockingValue chunks ∧
      ((rebondLoop value chunks unlockingBalance active).1.map UnlockChunk.era).Sublist
        (chunks.map UnlockChunk.era) ∧
      ((∀ chunk ∈ chunks, 0 < chunk.value) →
        ∀ chunk ∈ (rebondLoop value chunks unlockingBalance active).1, 0 < chunk.value) := by
  induction chunks with
  | nil =>
      intro unlockingBalance active _
      exact ⟨rfl, List.Sublist.refl _, fun hpos => hpos⟩
  | cons last chunks ih =>
      intro unlockingBalance active hle
      unfold rebondLoop
      split
      · rename_i hwhole
        split
        · refine ⟨?_, List.sublist_cons_self _ _, fun hpos chunk hchunk => ?_⟩
          · simp only [unlockingValue, List.map_cons, List.sum_cons]
            omega
          · exact hpos chunk (List.mem_cons_of_mem _ hchunk)
        · obtain ⟨hsum, heras, hkept⟩ :=
            ih (unlockingBalance + last.value) (active + last.value) hwhole
          refine ⟨?_, heras.cons _, fun hpos => hkept fun chunk hchunk => ?_⟩
          · rw [hsum]
            simp only [unlockingValue, List.map_cons, List.sum_cons]
            omega
          · exact hpos chunk (List.mem_cons_of_mem _ hchunk)
      · rename_i hpart
        refine ⟨?_, List.Sublist.refl _, fun hpos chunk hchunk => ?_⟩
        · simp only [unlockingValue, List.map_cons, List.sum_cons]
          omega
        · rcases List.mem_cons.mp hchunk with rfl | hchunk
          · show 0 < last.value - (value - unlockingBalance)
            omega
          · exact hpos chunk (List.mem_cons_of_mem _ hchunk)

theorem WellFormed.rebond (hl : l.WellFormed horizon) (value : ℕ) :
    (l.rebond value).WellFormed horizon := by
  obtain ⟨hsum, heras, hkept⟩ :=
    rebondLoop_spec value l.unlocking.reverse 0 l.active (Nat.zero_le _)
  have hreverse : ∀ chunks : List UnlockChunk,
      unlockingValue chunks.reverse = unlockingValue chunks := by
    intro chunks
    simp [unlockingValue]
  refine hl.of_sublist ?_ ?_ ?_
  · rw [List.map_reverse] at heras
    simp only [StakingLedger.rebond, List.map_reverse]
    exact List.reverse_sublist.mp (by rwa [List.reverse_reverse])
  · intro chunk hchunk
    simp only [StakingLedger.rebond, List.mem_reverse] at hchunk
    refine hkept (fun chunk hchunk => ?_) chunk hchunk
    exact hl.value_pos chunk (List.mem_reverse.mp hchunk)
  · have htotal := hl.total_eq
    simp only [StakingLedger.rebond, hreverse] at hsum ⊢
    omega

/-- What is slashed leaves both the target and the total. -/
private theorem slashOutOf_spec (minimumBalance total target value : ℕ) :
    (slashOutOf minimumBalance total target value).2.1 ≤ target ∧
      (slashOutOf minimumBalance total target value).1
        = total - (target - (slashOutOf minimumBalance total target value).2.1) := by
  unfold slashOutOf
  split
  · simp
  · split
    · simp only
      omega
    · simp only
      omega

private theorem slashChunks_spec (minimumBalance : ℕ) (chunks : List UnlockChunk) :
    ∀ total value, unlockingValue (slashChunks minimumBalance chunks total value).1
        ≤ unlockingValue chunks ∧
      (slashChunks minimumBalance chunks total value).2 = total - (unlockingValue chunks
        - unlockingValue (slashChunks minimumBalance chunks total value).1) ∧
      ((slashChunks minimumBalance chunks total value).1.map UnlockChunk.era).Sublist
        (chunks.map UnlockChunk.era) ∧
      ((∀ chunk ∈ chunks, 0 < chunk.value) →
        ∀ chunk ∈ (slashChunks minimumBalance chunks total value).1, 0 < chunk.value) := by
  induction chunks with
  | nil =>
      intro total value
      exact ⟨Nat.le_refl _, by simp [slashChunks], List.Sublist.refl _, fun hpos => hpos⟩
  | cons chunk chunks ih =>
      intro total value
      obtain ⟨hle, htotal⟩ := slashOutOf_spec minimumBalance total chunk.value value
      have hcons : unlockingValue (chunk :: chunks) = chunk.value + unlockingValue chunks := by
        simp [unlockingValue]
      unfold slashChunks
      split
      · rename_i hzero
        obtain ⟨hrest, hrestTotal, heras, hkept⟩ :=
          ih (slashOutOf minimumBalance total chunk.value value).1
            (slashOutOf minimumBalance total chunk.value value).2.2
        refine ⟨by omega, ?_, heras.cons _, fun hpos => hkept fun c hc => ?_⟩
        · rw [hcons]
          omega
        · exact hpos c (List.mem_cons_of_mem _ hc)
      · rename_i hleft
        refine ⟨?_, ?_, List.Sublist.refl _, fun hpos c hc => ?_⟩
        · simp only [unlockingValue, List.map_cons, List.sum_cons]
          omega
        · rw [htotal]
          simp only [unlockingValue, List.map_cons, List.sum_cons]
          omega
        · rcases List.mem_cons.mp hc with rfl | hc
          · exact Nat.pos_of_ne_zero hleft
          · exact hpos c (List.mem_cons_of_mem _ hc)

theorem WellFormed.slash (hl : l.WellFormed horizon) (value minimumBalance : ℕ) :
    (l.slash value minimumBalance).WellFormed horizon := by
  obtain ⟨hactive, hfirst⟩ := slashOutOf_spec minimumBalance l.total l.active value
  obtain ⟨hle, hrest, heras, hkept⟩ := slashChunks_spec minimumBalance l.unlocking
    (slashOutOf minimumBalance l.total l.active value).1
    (slashOutOf minimumBalance l.total l.active value).2.2
  refine hl.of_sublist heras (hkept hl.value_pos) ?_
  have htotal := hl.total_eq
  simp only [StakingLedger.slash]
  omega

/-! ## Slashes that take everything -/

/-- The funds a slash reaches last: the last chunk, or the active funds if nothing unlocks. -/
def lastFunds (l : StakingLedger A) : ℕ :=
  (l.unlocking.getLast?.map UnlockChunk.value).getD l.active

/-- A target is used up by a slash that leaves at most the minimum balance of it, and what is left
of the slash goes on to the next target. -/
private theorem slashOutOf_eq_zero_iff (minimumBalance total value : ℕ) {target : ℕ}
    (hpos : 0 < target) :
    ((slashOutOf minimumBalance total target value).2.1 = 0 ↔
        0 < value ∧ target ≤ value + minimumBalance) ∧
      ((slashOutOf minimumBalance total target value).2.1 = 0 →
        (slashOutOf minimumBalance total target value).2.2 = value - target) := by
  unfold slashOutOf
  split
  · rename_i hnone
    dsimp only
    omega
  · split
    · rename_i hsome hdust
      refine ⟨⟨fun _ => ⟨?_, ?_⟩, fun _ => rfl⟩, fun _ => ?_⟩
      · omega
      · omega
      · dsimp only
        omega
    · rename_i hsome hmore
      dsimp only
      omega

private theorem last_value_le {chunks : List UnlockChunk} {last : UnlockChunk}
    (h : chunks.getLast? = some last) : last.value ≤ unlockingValue chunks :=
  List.single_le_sum (fun n _ => Nat.zero_le n) _
    (List.mem_map_of_mem (List.mem_of_getLast? h))

/-- A well-formed ledger without funds has nothing active and nothing unlocking. -/
theorem WellFormed.total_eq_zero_iff (hl : l.WellFormed horizon) :
    l.total = 0 ↔ l.active = 0 ∧ l.unlocking = [] := by
  rw [hl.total_eq, Nat.add_eq_zero_iff]
  refine and_congr_right fun _ => ⟨fun hzero => ?_, fun hnil => by rw [hnil]; rfl⟩
  apply List.eq_nil_iff_forall_not_mem.mpr
  intro chunk hchunk
  have hle : chunk.value ≤ unlockingValue l.unlocking :=
    List.single_le_sum (fun n _ => Nat.zero_le n) _ (List.mem_map_of_mem hchunk)
  have hpos := hl.value_pos chunk hchunk
  omega

private theorem slashChunks_eq_nil_iff (minimumBalance : ℕ) (chunks : List UnlockChunk)
    (hpos : ∀ chunk ∈ chunks, 0 < chunk.value) :
    ∀ total value, (slashChunks minimumBalance chunks total value).1 = [] ↔
      ∀ last, chunks.getLast? = some last →
        unlockingValue chunks ≤ value + minimumBalance ∧
          unlockingValue chunks < value + last.value := by
  induction chunks with
  | nil => simp [slashChunks]
  | cons chunk chunks ih =>
      intro total value
      have hchunk : 0 < chunk.value := hpos chunk List.mem_cons_self
      have hrest := ih fun c hc => hpos c (List.mem_cons_of_mem _ hc)
      have hcons : unlockingValue (chunk :: chunks) = chunk.value + unlockingValue chunks := by
        simp [unlockingValue]
      obtain ⟨hzero, hvalue⟩ :=
        slashOutOf_eq_zero_iff minimumBalance total value hchunk
      have hstart : (slashChunks minimumBalance (chunk :: chunks) total value).1 = [] ↔
          (0 < value ∧ chunk.value ≤ value + minimumBalance) ∧
            ∀ last, chunks.getLast? = some last →
              unlockingValue chunks ≤ value - chunk.value + minimumBalance ∧
                unlockingValue chunks < value - chunk.value + last.value := by
        unfold slashChunks
        split
        · rename_i hused
          rw [hrest, hvalue hused]
          exact ⟨fun h => ⟨hzero.mp hused, h⟩, fun h => h.2⟩
        · rename_i hleft
          exact ⟨nofun, fun h => absurd (hzero.mpr h.1) hleft⟩
      rw [hstart, hcons]
      -- the last chunk is the first one, or the last of the others, which are worth at least that
      cases hlast : chunks.getLast? with
      | none =>
          have hnil : chunks = [] := List.getLast?_eq_none_iff.mp hlast
          subst hnil
          simp only [List.getLast?_singleton, Option.some.injEq, forall_eq', unlockingValue,
            List.map_nil, List.sum_nil]
          constructor
          · rintro ⟨hused, -⟩
            omega
          · intro h
            exact ⟨by omega, nofun⟩
      | some last =>
          have hle := last_value_le hlast
          have hlast' : (chunk :: chunks).getLast? = some last := by
            rw [List.getLast?_cons, hlast, Option.getD_some]
          simp only [hlast', Option.some.injEq, forall_eq']
          constructor
          · rintro ⟨hused, hothers⟩
            omega
          · intro h
            omega

/-- **When a slash empties a ledger**: it leaves at most the minimum balance of the total, and what
it leaves is within the funds it reaches last. -/
theorem WellFormed.slash_total_eq_zero_iff (hl : l.WellFormed horizon) (hne : l.total ≠ 0)
    (value minimumBalance : ℕ) :
    (l.slash value minimumBalance).total = 0 ↔
      l.total ≤ value + minimumBalance ∧ l.total < value + l.lastFunds := by
  have htotal := hl.total_eq
  have hempty := (hl.slash value minimumBalance).total_eq_zero_iff
  have hchunks := slashChunks_eq_nil_iff minimumBalance l.unlocking hl.value_pos
    (slashOutOf minimumBalance l.total l.active value).1
    (slashOutOf minimumBalance l.total l.active value).2.2
  rw [hempty]
  show (slashOutOf minimumBalance l.total l.active value).2.1 = 0 ∧
    (slashChunks minimumBalance l.unlocking _ _).1 = [] ↔ _
  rw [hchunks]
  have hfirst : (slashOutOf minimumBalance l.total l.active value).2.1 = 0 ↔
      l.active = 0 ∨ (0 < value ∧ l.active ≤ value + minimumBalance) := by
    rcases Nat.eq_zero_or_pos l.active with hzero | hpos
    · simp [slashOutOf, hzero]
    · rw [(slashOutOf_eq_zero_iff _ _ _ hpos).1]
      omega
  have hvalue : (slashOutOf minimumBalance l.total l.active value).2.1 = 0 →
      (slashOutOf minimumBalance l.total l.active value).2.2 = value - l.active := by
    rcases Nat.eq_zero_or_pos l.active with hzero | hpos
    · simp [slashOutOf, hzero]
    · exact (slashOutOf_eq_zero_iff _ _ _ hpos).2
  unfold lastFunds
  cases hlast : l.unlocking.getLast? with
  | none =>
      have hnil : l.unlocking = [] := List.getLast?_eq_none_iff.mp hlast
      have hsum : unlockingValue l.unlocking = 0 := by simp [hnil, unlockingValue]
      rw [hfirst]
      simp only [reduceCtorEq, false_imp_iff, implies_true, and_true, Option.map_none,
        Option.getD_none]
      omega
  | some last =>
      have hle := last_value_le hlast
      have hpos : 0 < last.value := hl.value_pos last (List.mem_of_getLast? hlast)
      simp only [Option.some.injEq, forall_eq', Option.map_some, Option.getD_some]
      constructor
      · rintro ⟨hused, hothers⟩
        rw [hvalue hused] at hothers
        rw [hfirst] at hused
        omega
      · intro h
        have hused := hfirst.mpr (by omega)
        rw [hvalue hused]
        exact ⟨hused, by omega⟩

end StakingLedger

end Setheum.Staking
