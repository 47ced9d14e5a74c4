import Setheum.Staking.Ledger

/-!
# What a slash takes from a ledger

A slash eats into the active funds, then into the chunks in the order in which they unlock, and
takes a remainder of at most the minimum balance along with the target it is left on. A remainder
ends the slash, so it is taken at most once.

* `slashOutOf_cases` — the four ways in which one target is slashed.
* `slashChunks_cases` — the first chunks go, the next one may be lowered, the others stay.
* `slash_bounds` — how much a slash takes, from where, and what it leaves.
* `slash_drains_emptyChunk` — a leading chunk without funds goes whatever stays active.
-/

set_option autoImplicit false

namespace Setheum.Staking

namespace StakingLedger

variable {A : Type}

/-- **What slashing one target does**: nothing, or the whole target goes, or the whole target goes
for the dust it would leave, or the value does. -/
theorem slashOutOf_cases (minimumBalance total target value : ℕ) :
    ((value = 0 ∨ target = 0) ∧
        slashOutOf minimumBalance total target value = (total, target, value)) ∨
      (target ≤ value ∧
        slashOutOf minimumBalance total target value = (total - target, 0, value - target)) ∨
      (0 < value ∧ value < target ∧ target ≤ value + minimumBalance ∧
        slashOutOf minimumBalance total target value = (total - target, 0, 0)) ∨
      (0 < value ∧ value + minimumBalance < target ∧
        slashOutOf minimumBalance total target value = (total - value, target - value, 0)) := by
  unfold slashOutOf
  by_cases hnone : min value target = 0
  · rw [if_pos hnone]
    exact .inl ⟨by omega, rfl⟩
  · rw [if_neg hnone]
    by_cases hdust : target - min value target ≤ minimumBalance
    · rw [if_pos hdust]
      have htaken : min value target + (target - min value target) = target := by omega
      rw [htaken]
      by_cases hle : target ≤ value
      · have hleft : value + (target - min value target) - target = value - target := by omega
        rw [hleft]
        exact .inr (.inl ⟨hle, rfl⟩)
      · have hleft : value + (target - min value target) - target = 0 := by omega
        rw [hleft]
        exact .inr (.inr (.inl ⟨by omega, by omega, by omega, rfl⟩))
    · rw [if_neg hdust]
      have htaken : min value target = value := by omega
      rw [htaken, Nat.sub_self]
      exact .inr (.inr (.inr ⟨by omega, by omega, rfl⟩))

/-- Where the target is not used up, nothing is left to slash. -/
theorem slashOutOf_spent (minimumBalance total target value : ℕ) :
    (slashOutOf minimumBalance total target value).2.1 = 0 ∨
      (slashOutOf minimumBalance total target value).2.2 = 0 := by
  rcases slashOutOf_cases minimumBalance total target value with
    ⟨hnone, heq⟩ | ⟨-, heq⟩ | ⟨-, -, -, heq⟩ | ⟨-, -, heq⟩
  · rw [heq]
    exact hnone.symm
  · rw [heq]
    exact .inl rfl
  · rw [heq]
    exact .inl rfl
  · rw [heq]
    exact .inr rfl

/-- A target that is slashed is used up or left with more than the minimum balance. -/
theorem slashOutOf_left (minimumBalance total target value : ℕ) :
    (slashOutOf minimumBalance total target value).2.1 = target ∨
      (slashOutOf minimumBalance total target value).2.1 < target ∧
        ((slashOutOf minimumBalance total target value).2.1 = 0 ∨
          minimumBalance < (slashOutOf minimumBalance total target value).2.1) := by
  have hgone : 0 = target ∨ 0 < target ∧ (0 = 0 ∨ minimumBalance < 0) :=
    (Nat.eq_zero_or_pos target).imp Eq.symm fun hpos => ⟨hpos, .inl rfl⟩
  rcases slashOutOf_cases minimumBalance total target value with
    ⟨-, heq⟩ | ⟨-, heq⟩ | ⟨-, -, -, heq⟩ | ⟨hpos, hlt, heq⟩
  · rw [heq]
    exact .inl rfl
  · rw [heq]
    exact hgone
  · rw [heq]
    exact hgone
  · rw [heq]
    exact .inr ⟨Nat.sub_lt (by omega) hpos, .inr (Nat.lt_sub_of_add_lt (by omega))⟩

/-- The first chunks are gone, the funds of the next one may be lowered to more than the minimum
balance, and the later ones are as they were. -/
def EatenInto (minimumBalance : ℕ) (chunks gone left : List UnlockChunk) : Prop :=
  ∃ rest, chunks = gone ++ rest ∧
    (left = rest ∨
      ∃ chunk later n, rest = chunk :: later ∧ left = { chunk with value := n } :: later ∧
        minimumBalance < n ∧ n < chunk.value)

theorem EatenInto.cons {minimumBalance : ℕ} {chunks gone left : List UnlockChunk}
    (h : EatenInto minimumBalance chunks gone left) (chunk : UnlockChunk) :
    EatenInto minimumBalance (chunk :: chunks) (chunk :: gone) left := by
  obtain ⟨rest, rfl, hleft⟩ := h
  exact ⟨rest, rfl, hleft⟩

private theorem unlockingValue_append (chunks chunks' : List UnlockChunk) :
    unlockingValue (chunks ++ chunks') = unlockingValue chunks + unlockingValue chunks' := by
  simp [unlockingValue]

private theorem unlockingValue_cons (chunk : UnlockChunk) (chunks : List UnlockChunk) :
    unlockingValue (chunk :: chunks) = chunk.value + unlockingValue chunks := by
  simp [unlockingValue]

/-- **What slashing the chunks does.** -/
theorem slashChunks_cases (minimumBalance : ℕ) (chunks : List UnlockChunk) :
    ∀ total value left total', slashChunks minimumBalance chunks total value = (left, total') →
      (min value (unlockingValue chunks) + unlockingValue left ≤ unlockingValue chunks ∧
        unlockingValue chunks ≤ unlockingValue left + value + minimumBalance) ∧
      total' = total - (unlockingValue chunks - unlockingValue left) ∧
      (∀ chunk, left.head? = some chunk → chunk.value ≠ 0) ∧
      ∃ gone, EatenInto minimumBalance chunks gone left ∧
        (value = 0 → unlockingValue gone = 0 ∧ chunks = gone ++ left) := by
  induction chunks with
  | nil =>
      rintro total value left total' ⟨⟩
      exact ⟨by simp [unlockingValue], by simp, nofun, [], ⟨[], rfl, .inl rfl⟩,
        fun _ => ⟨rfl, rfl⟩⟩
  | cons chunk chunks ih =>
      intro total value left total' h
      have hcons := unlockingValue_cons chunk chunks
      unfold slashChunks at h
      rcases slashOutOf_cases minimumBalance total chunk.value value with
        ⟨hnone, heq⟩ | ⟨hle, heq⟩ | ⟨hpos, hlt, hdust, heq⟩ | ⟨hpos, hlt, heq⟩
      · rw [heq] at h
        simp only at h
        split at h
        -- an empty chunk goes, whatever is slashed
        · rename_i hempty
          obtain ⟨hbounds, htotal, hhead, gone, heaten, hzero⟩ := ih total value left total' h
          refine ⟨by omega, by omega, hhead, chunk :: gone, heaten.cons chunk, fun hv => ?_⟩
          obtain ⟨hgone, happend⟩ := hzero hv
          have hgone' := unlockingValue_cons chunk gone
          exact ⟨by omega, by rw [List.cons_append, ← happend]⟩
        · rename_i hfunds
          have hv : value = 0 := by omega
          have hkept : (chunk :: chunks, total) = (left, total') := h
          cases hkept
          refine ⟨by omega, by omega, ?_, [], ⟨chunk :: chunks, rfl, .inl rfl⟩,
            fun _ => ⟨rfl, rfl⟩⟩
          rintro c ⟨⟩
          exact hfunds
      · rw [heq] at h
        obtain ⟨hbounds, htotal, hhead, gone, heaten, hzero⟩ :=
          ih (total - chunk.value) (value - chunk.value) left total' h
        refine ⟨by omega, by omega, hhead, chunk :: gone, heaten.cons chunk, fun hv => ?_⟩
        obtain ⟨hgone, happend⟩ := hzero (by omega)
        have hgone' := unlockingValue_cons chunk gone
        exact ⟨by omega, by rw [List.cons_append, ← happend]⟩
      · rw [heq] at h
        obtain ⟨hbounds, htotal, hhead, gone, heaten, hzero⟩ :=
          ih (total - chunk.value) 0 left total' h
        obtain ⟨hgone, happend⟩ := hzero rfl
        have hsum : unlockingValue chunks = unlockingValue left := by
          rw [happend, unlockingValue_append, hgone, Nat.zero_add]
        exact ⟨by omega, by omega, hhead, chunk :: gone, heaten.cons chunk, fun hv => by omega⟩
      · rw [heq, if_neg (by simp only; omega)] at h
        simp only [Prod.mk.injEq] at h
        obtain ⟨rfl, rfl⟩ := h
        have hleft := unlockingValue_cons { chunk with value := chunk.value - value } chunks
        simp only at hleft
        refine ⟨by omega, by omega, ?_, [], ⟨chunk :: chunks, rfl, .inr ?_⟩, fun hv => by omega⟩
        · rintro c ⟨⟩
          simp only
          omega
        · exact ⟨chunk, chunks, chunk.value - value, rfl, rfl, by omega, by omega⟩

/-- **A slash is bounded and ordered.** It takes at least what is asked for or everything, and at
most the minimum balance more; the total falls by what it takes and still adds up; it leaves no
dust; it comes to a chunk with funds only when the active funds and all the earlier chunks are used
up; and a used-up chunk is gone. -/
theorem slash_bounds (l : StakingLedger A)
    (htotal : l.total = l.active + unlockingValue l.unlocking) (value minimumBalance : ℕ) :
    let l' := l.slash value minimumBalance
    (min value l.total ≤ l.slashed value minimumBalance ∧
        l.slashed value minimumBalance ≤ min l.total (value + minimumBalance)) ∧
      l.slashed value minimumBalance + l'.total = l.total ∧
      l'.total = l'.active + unlockingValue l'.unlocking ∧
      (l'.active = l.active ∨ l'.active < l.active ∧ (l'.active = 0 ∨ minimumBalance < l'.active)) ∧
      (∃ gone rest, l.unlocking = gone ++ rest ∧
        ((∃ chunk ∈ gone, chunk.value ≠ 0) → l'.active = 0) ∧
        (l'.unlocking = rest ∨
          l'.active = 0 ∧ ∃ chunk later n, rest = chunk :: later ∧
            l'.unlocking = { chunk with value := n } :: later ∧
            minimumBalance < n ∧ n < chunk.value)) ∧
      (∀ chunk, l'.unlocking.head? = some chunk → chunk.value ≠ 0) ∧
      l'.stash = l.stash ∧ l'.claimedRewards = l.claimedRewards := by
  intro l'
  obtain ⟨left, total', hchunks⟩ : ∃ left total', slashChunks minimumBalance l.unlocking
      (slashOutOf minimumBalance l.total l.active value).1
      (slashOutOf minimumBalance l.total l.active value).2.2 = (left, total') := ⟨_, _, rfl⟩
  have hl' : l' = { l with
      active := (slashOutOf minimumBalance l.total l.active value).2.1
      unlocking := left, total := total' } := by
    show l.slash value minimumBalance = _
    simp only [slash, hchunks]
  have hslashed : l.slashed value minimumBalance = l.total - total' := by
    show l.total - l'.total = _
    rw [hl']
  obtain ⟨hbounds, hsum, hhead, gone, ⟨rest, hrest, hleft⟩, hzero⟩ :=
    slashChunks_cases minimumBalance l.unlocking _ _ left total' hchunks
  have hcases := slashOutOf_cases minimumBalance l.total l.active value
  have hactive := slashOutOf_spent minimumBalance l.total l.active value
  have hkept : (slashOutOf minimumBalance l.total l.active value).2.2 = 0 →
      unlockingValue l.unlocking = unlockingValue left := by
    intro hv
    obtain ⟨hgone, happend⟩ := hzero hv
    rw [happend, unlockingValue_append, hgone, Nat.zero_add]
  have hsums : l.total - total' + total' = l.total ∧
      total' = (slashOutOf minimumBalance l.total l.active value).2.1 + unlockingValue left ∧
      min value l.total + total' ≤ l.total ∧ l.total ≤ total' + value + minimumBalance := by
    rcases hcases with ⟨hnone, heq⟩ | ⟨hle, heq⟩ | ⟨hpos, hlt, hdust, heq⟩ | ⟨hpos, hlt, heq⟩
    all_goals
      rw [heq] at hbounds hsum hkept ⊢
      simp only [forall_const] at hbounds hsum hkept ⊢
      omega
  have hdust := slashOutOf_left minimumBalance l.total l.active value
  rw [hslashed, hl']
  refine ⟨by omega, hsums.1, hsums.2.1, hdust, ⟨gone, rest, hrest, ?_, ?_⟩, hhead, rfl, rfl⟩
  · rintro ⟨chunk, hchunk, hfunds⟩
    refine hactive.resolve_right fun hv => hfunds ?_
    have hle : chunk.value ≤ unlockingValue gone :=
      List.single_le_sum (fun n _ => Nat.zero_le n) _ (List.mem_map_of_mem hchunk)
    have hgone := (hzero hv).1
    omega
  · rcases hleft with hsame | ⟨chunk, later, n, hhead, hlowered, hmore, hless⟩
    · exact .inl hsame
    · refine .inr ⟨hactive.resolve_right fun hv => ?_, chunk, later, n, hhead, hlowered, hmore,
        hless⟩
      -- with nothing left to slash, the chunks that stay are as they were
      have hsame : rest = left := List.append_cancel_left (hrest.symm.trans (hzero hv).2)
      rw [hhead, hlowered, List.cons.injEq] at hsame
      rw [hsame.1] at hless
      exact absurd hless (lt_irrefl n)

/-- A ledger whose first chunk is dust after a slash of 13. -/
def dustLedger : StakingLedger ℕ where
  stash := 1
  total := 26
  active := 10
  unlocking := [⟨7, 1⟩, ⟨9, 2⟩]
  claimedRewards := []

theorem slash_bounds_dustLedger :
    min 13 26 ≤ dustLedger.slashed 13 5 ∧ dustLedger.slashed 13 5 ≤ min 26 (13 + 5) ∧
      (dustLedger.slash 13 5).unlocking = [⟨9, 2⟩] := by
  obtain ⟨⟨hleast, hmost⟩, -⟩ := slash_bounds dustLedger rfl 13 5
  exact ⟨hleast, hmost, rfl⟩

/-- A ledger whose first chunk has no funds. -/
def emptyChunkLedger : StakingLedger ℕ where
  stash := 1
  total := 100
  active := 100
  unlocking := [⟨0, 1⟩]
  claimedRewards := []

/-- **A chunk may go while funds stay active.** Slashing 10 leaves 90 active and no chunk. -/
theorem slash_drains_emptyChunk :
    ¬ ∀ (l : StakingLedger ℕ) (value minimumBalance : ℕ),
      l.total = l.active + unlockingValue l.unlocking →
        (l.slash value minimumBalance).unlocking ≠ l.unlocking →
          (l.slash value minimumBalance).active = 0 :=
  fun h => absurd (h emptyChunkLedger 10 1 rfl (by decide)) (by decide)

end StakingLedger

end Setheum.Staking
