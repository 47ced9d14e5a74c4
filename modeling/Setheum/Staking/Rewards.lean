import Setheum.Staking.Aging

/-!
# Rewards are claimed once and within the budget

Anybody may have the reward of an era paid out to the stakers behind a validator. The claims of a
ledger keep a second payout away, and the payments of an era are shares of shares of its recorded
payout: each is rounded, so together they may exceed it by at most one unit for each payment.

`watch` runs the pallet and notes every payout that succeeds, with the growth of the two issuances
as what it credited.

* `sum_paymentsOf_le` — the payments for one validator against its share of the payout.
* `rewards_of_run` — over every run, no reward is paid twice and no era pays more than it recorded.
-/

set_option autoImplicit false

namespace Setheum.Staking

open StorageMap

variable {A : Type} [DecidableEq A] {cfg : Config A}

/-- The two currencies of a payout. -/
inductive Side
  | setter
  | native
  deriving DecidableEq

/-- The amount in one currency of a pair of amounts. -/
def Side.of : Side → ℕ × ℕ → ℕ
  | .setter, amounts => amounts.1
  | .native, amounts => amounts.2

theorem Side.of_map (side : Side) (f : ℕ → ℕ) (amounts : ℕ × ℕ) :
    side.of (f amounts.1, f amounts.2) = f (side.of amounts) := by
  cases side <;> rfl

/-- The amount in one currency of a recorded payout. -/
def EraPayout.amount (p : EraPayout) (side : Side) : ℕ := side.of (p.setterPayout, p.nativePayout)

/-- The issuance of one currency. -/
def State.issued (s : State A) : Side → ℕ
  | .setter => s.setter.issuance ()
  | .native => s.native.issuance

/-! ## Shares -/

/-- The part of an era's payout that the points of a validator earn. -/
def earned (points : EraRewardPoints A) (stash : A) : Perbill :=
  PerThing.fromRational (get 0 points.individual stash) points.total

/-- **Together the validators earn at most the whole payout.** -/
theorem sum_earned_le (points : EraRewardPoints A) {stashes : List A} (h : stashes.Nodup) :
    (stashes.map fun stash => (earned points stash).parts).sum ≤ 1000000000 := by
  have hpoints : (stashes.map (get 0 points.individual)).sum ≤ points.total := by
    rw [points.total_eq]
    exact sum_get_le_sumBy points.individual h
  have hparts : ((stashes.map (get 0 points.individual)).map fun p =>
      (PerThing.fromRational p points.total : Perbill).parts).sum ≤ 1000000000 :=
    PerThing.sum_fromRational_parts_le hpoints
  rw [List.map_map] at hparts
  exact hparts

/-- The amounts of one validator's payout in one currency. -/
def amounts (commission : Perbill) (exposure : Exposure A) (totalPayout : ℕ) : List ℕ :=
  validatorPayout commission exposure totalPayout ::
    exposure.others.map fun nominator =>
      stakingPayout commission exposure totalPayout nominator.value

omit [DecidableEq A] in
/-- One currency of a first payment and others that depend on two amounts alike. -/
theorem Side.of_payments {B : Type} (side : Side) (who : B → A) (stash : A) (f : ℕ → ℕ)
    (g : ℕ → B → ℕ) (bs : List B) (total : ℕ × ℕ) :
    ((stash, f total.1, f total.2) :: bs.map fun b => (who b, g total.1 b, g total.2 b)).map
        (fun p => side.of p.2)
      = f (side.of total) :: bs.map (g (side.of total)) := by
  rw [List.map_cons, List.map_map]
  cases side <;> rfl

omit [DecidableEq A] in
theorem stakerPayments_amounts (commission : Perbill) (exposure : Exposure A) (stash : A)
    (totalPayout : ℕ × ℕ) (side : Side) :
    (stakerPayments commission exposure stash totalPayout).map (fun p => side.of p.2)
      = amounts commission exposure (side.of totalPayout) :=
  side.of_payments IndividualExposure.who stash (validatorPayout commission exposure)
    (fun n nominator => stakingPayout commission exposure n nominator.value) exposure.others
    totalPayout

theorem accuracy_pos : 0 < 1000000000 := by decide

/-- The shares that some stakes earn. -/
theorem sum_shares_le (stakes : List ℕ) (total : ℕ)
    (h : (stakes.map fun value => (PerThing.fromRational value total : Perbill).parts).sum
      ≤ 1000000000)
    (n : ℕ) :
    2 * (stakes.map fun value => (PerThing.fromRational value total : Perbill).mul n).sum
      ≤ 2 * n + stakes.length := by
  have hparts : ((stakes.map fun value => (PerThing.fromRational value total : Perbill)).map
      PerThing.parts).sum ≤ 1000000000 := by
    rw [List.map_map]
    exact h
  have hshares := PerThing.sum_mul_le accuracy_pos hparts n
  rw [List.map_map, List.length_map] at hshares
  exact hshares

omit [DecidableEq A] in
/-- The amounts of a payout make at most the payout, up to half a unit each. -/
theorem sum_amounts_le (commission : Perbill) (exposure : Exposure A) (totalPayout : ℕ) :
    2 * (amounts commission exposure totalPayout).sum
      ≤ 2 * totalPayout + (exposure.others.length + 1) := by
  have hstakes : (exposure.own :: exposure.others.map IndividualExposure.value).sum
      ≤ exposure.total := by
    rw [List.sum_cons]
    exact exposure.covered
  have hparts : ((exposure.own :: exposure.others.map IndividualExposure.value).map fun value =>
      (PerThing.fromRational value exposure.total : Perbill).parts).sum ≤ 1000000000 :=
    PerThing.sum_fromRational_parts_le hstakes
  have hshares := sum_shares_le (exposure.own :: exposure.others.map IndividualExposure.value)
    exposure.total hparts (leftoverPayout commission totalPayout)
  have hcommission : commission.mul totalPayout ≤ totalPayout :=
    commission.mul_le_self accuracy_pos totalPayout
  simp only [List.map_cons, List.map_map, List.sum_cons, List.length_cons, List.length_map]
    at hshares
  simp only [amounts, validatorPayout, stakingPayout, List.sum_cons]
  simp only [leftoverPayout, Function.comp_def] at hshares ⊢
  omega

/-- **The payments for a validator** make at most its share of the recorded payout, up to one unit
each. -/
theorem sum_paymentsOf_le (s : State A) (validatorStash stash : A) (era : ℕ) (payout : ℕ × ℕ)
    (side : Side) :
    1000000000 * ((paymentsOf s validatorStash stash era payout).map fun p => side.of p.2).sum
      ≤ (earned (s.erasRewardPoints era) stash).parts * side.of payout
        + 1000000000 * (paymentsOf s validatorStash stash era payout).length := by
  unfold paymentsOf
  split
  · exact Nat.zero_le _
  · rw [stakerPayments_amounts]
    have hside : side.of (validatorTotalPayout (s.erasRewardPoints era) stash payout.1,
        validatorTotalPayout (s.erasRewardPoints era) stash payout.2)
          = (earned (s.erasRewardPoints era) stash).mul (side.of payout) :=
      side.of_map (validatorTotalPayout (s.erasRewardPoints era) stash) payout
    have hamounts := sum_amounts_le (s.erasValidatorPrefs era validatorStash).commission
      (s.erasStakersClipped era stash)
      ((earned (s.erasRewardPoints era) stash).mul (side.of payout))
    have hshare := (earned (s.erasRewardPoints era) stash).mul_le (side.of payout)
    rw [hside]
    simp only [stakerPayments, List.length_cons, List.length_map]
    omega

/-! ## What payments issue -/

/-- The issuance of one currency grows by at most an amount. -/
def GrowsBy (side : Side) (n : ℕ) (s s' : State A) : Prop :=
  s.issued side ≤ s'.issued side ∧ s'.issued side ≤ s.issued side + n

omit [DecidableEq A] in
theorem GrowsBy.refl (side : Side) (n : ℕ) (s : State A) : GrowsBy side n s s :=
  ⟨Nat.le_refl _, Nat.le_add_right _ n⟩

omit [DecidableEq A] in
theorem GrowsBy.trans {side : Side} {n m : ℕ} {s s' s'' : State A} (h : GrowsBy side n s s')
    (h' : GrowsBy side m s' s'') : GrowsBy side (n + m) s s'' := by
  obtain ⟨hle, hn⟩ := h
  obtain ⟨hle', hm⟩ := h'
  constructor <;> omega

omit [DecidableEq A] in
theorem GrowsBy.of_eq {side : Side} {n : ℕ} {s s' : State A}
    (h : s'.issued side = s.issued side) : GrowsBy side n s s' := by
  rw [GrowsBy, h]
  exact ⟨Nat.le_refl _, Nat.le_add_right _ n⟩

variable (cfg) in
/-- The Setter part of a payment issues its amount or nothing. -/
theorem makeSetterPayout_grows (side : Side) (payment : A × ℕ × ℕ) (s : State A) :
    GrowsBy side (side.of (payment.2.1, 0)) s (makeSetterPayout cfg payment.1 payment.2.1 s) := by
  have hissue : ∀ {who : A} {l : Ledger Unit A},
      Ledger.deposit cfg.setterRules () who payment.2.1 s.setter = .ok l →
        GrowsBy side (side.of (payment.2.1, 0)) s { s with setter := l } := by
    intro who l hdeposit
    cases side with
    | setter =>
        have hissuance := Ledger.deposit_issuance hdeposit ()
        rw [if_pos rfl] at hissuance
        simp only [GrowsBy, State.issued, Side.of]
        omega
    | native => exact .of_eq rfl
  unfold makeSetterPayout
  dsimp only
  split
  · split
    · rename_i l hdeposit
      exact hissue hdeposit
    · exact .refl side _ s
  · split
    · rename_i l hdeposit
      exact hissue hdeposit
    · exact .refl side _ s
  · exact .refl side _ s

theorem mint_grows (side : Side) (allowed : Bool) (who : A) (n : ℕ) (s : State A) :
    GrowsBy side (side.of (0, n)) s (mint allowed who n s) := by
  unfold mint
  split
  · cases side with
    | setter => exact .of_eq rfl
    | native => exact ⟨Nat.le_add_right _ n, Nat.le_refl _⟩
  · exact .refl side _ s

theorem updateLedger_issued (side : Side) (controller : A) (l : StakingLedger A) (s : State A) :
    (updateLedger cfg controller l s).issued side = s.issued side := by
  cases side <;> rfl

variable (cfg) in
/-- The native part of a payment issues its amount or nothing. -/
theorem makeNativePayout_grows (side : Side) (payment : A × ℕ × ℕ) (s : State A) :
    GrowsBy side (side.of (0, payment.2.2)) s (makeNativePayout cfg payment.1 payment.2.2 s) := by
  unfold makeNativePayout depositCreating depositIntoExisting
  split
  · exact .refl side _ s
  · split
    · split
      · exact mint_grows side _ _ _ s
      · exact .refl side _ s
    · exact mint_grows side _ _ _ s
    · split
      · exact .refl side _ s
      · split
        · exact .refl side _ s
        · unfold GrowsBy
          rw [updateLedger_issued]
          exact mint_grows side _ _ _ s
    · exact mint_grows side _ _ _ s
    · exact .refl side _ s

variable (cfg) in
/-- **Some payments issue at most their amounts.** -/
theorem foldl_makePayout_grows (side : Side) (payments : List (A × ℕ × ℕ)) (s : State A) :
    GrowsBy side (payments.map fun p => side.of p.2).sum s
      (payments.foldl (makePayout cfg) s) := by
  induction payments generalizing s with
  | nil => exact .refl side 0 s
  | cons payment payments ih =>
      rw [List.map_cons, List.sum_cons]
      refine GrowsBy.trans ?_ (ih (makePayout cfg s payment))
      have hsplit : side.of payment.2 = side.of (payment.2.1, 0) + side.of (0, payment.2.2) := by
        cases side <;> simp [Side.of]
      rw [hsplit]
      exact (makeSetterPayout_grows cfg side payment s).trans
        (makeNativePayout_grows cfg side payment _)

/-! ## Claims over runs -/

/-- A payout that succeeded: what it credited in each currency and how many payments it made. -/
structure Claim (A : Type) where
  validatorStash : A
  era : ℕ
  credited : Side → ℕ
  payments : ℕ

/-- The payments of a payout in a state. -/
def paymentsFor (s : State A) (validatorStash : A) (era : ℕ) : List (A × ℕ × ℕ) :=
  match (s.bonded validatorStash).bind s.ledger, s.erasValidatorReward era with
  | some l, some payout => paymentsOf s validatorStash l.stash era payout
  | _, _ => []

/-- The claim of a payout that took the first state to the second. -/
def Claim.observed (s s' : State A) (validatorStash : A) (era : ℕ) : Claim A where
  validatorStash := validatorStash
  era := era
  credited side := s'.issued side - s.issued side
  payments := (paymentsFor s validatorStash era).length

/-- The claims after a step: a payout that succeeds adds one. -/
def observe (cfg : Config A) (s : State A) (claims : List (Claim A)) : Act A → List (Claim A)
  | .call origin (.payoutStakers validatorStash era) =>
      if (payoutStakers cfg origin validatorStash era).succeeds s then
        Claim.observed s (step cfg s (.call origin (.payoutStakers validatorStash era)))
          validatorStash era :: claims
      else claims
  | _ => claims

/-- A step of the pallet together with the claims seen so far. -/
def watch (cfg : Config A) (x : State A × List (Claim A)) (act : Act A) :
    State A × List (Claim A) :=
  (step cfg x.1 act, observe cfg x.1 x.2 act)

/-- The claims for an era. -/
def claimsIn (claims : List (Claim A)) (era : ℕ) : List (Claim A) :=
  claims.filter fun c => c.era = era

/-- What the payouts for an era credited in one currency. -/
def creditedIn (claims : List (Claim A)) (side : Side) (era : ℕ) : ℕ :=
  ((claimsIn claims era).map fun c => c.credited side).sum

/-- The number of payments for an era. -/
def paymentsIn (claims : List (Claim A)) (era : ℕ) : ℕ :=
  ((claimsIn claims era).map Claim.payments).sum

/-- No reward was claimed twice, every claim is for an era with a recorded payout, and for each
recorded payout the claims credited at most its amounts, up to one unit for each payment. -/
structure WithinBudget (s : State A) (claims : List (Claim A)) : Prop where
  once : (claims.map fun c => (c.validatorStash, c.era)).Nodup
  recorded : ∀ c ∈ claims, ∃ p ∈ s.eraPayouts, p.era = c.era
  budget : ∀ p ∈ s.eraPayouts, ∀ side,
    creditedIn claims side p.era ≤ p.amount side + paymentsIn claims p.era

section Accounts

variable {s s' : State A} {claims : List (Claim A)} {c : Claim A}

/-- The parts of an era's payout that the claims for it have earned. -/
def earnedIn (points : EraRewardPoints A) (claims : List (Claim A)) (era : ℕ) : ℕ :=
  ((claimsIn claims era).map fun c => (earned points c.validatorStash).parts).sum

/-- What carries the budget through a run: while the payout of an era is stored, the eras claimed
are in the history and on the ledgers of the claimants, and the claims credited at most the parts
that they earned. -/
structure Accounts (s : State A) (claims : List (Claim A)) : Prop
    extends WithinBudget s claims where
  past : ∀ p ∈ s.eraPayouts, p.era < endedEras s.activeEra
  distinct : ∀ p ∈ s.eraPayouts, ∀ q ∈ s.eraPayouts, p.era = q.era → p = q
  logged : ∀ e R, s.erasValidatorReward e = some R → Logged e R s
  kept : ∀ c ∈ claims, ∀ R, s.erasValidatorReward c.era = some R → s.lastKept ≤ c.era
  claimed : ∀ controller l, s.ledger controller = some l → ∀ c ∈ claims,
    c.validatorStash = l.stash → ∀ R, s.erasValidatorReward c.era = some R →
      c.era ∈ l.claimedRewards
  spent : ∀ e R, s.erasValidatorReward e = some R → ∀ side,
    1000000000 * creditedIn claims side e
      ≤ earnedIn (s.erasRewardPoints e) claims e * side.of R + 1000000000 * paymentsIn claims e

omit [DecidableEq A] in
theorem claimsIn_cons (c : Claim A) (claims : List (Claim A)) (era : ℕ) :
    claimsIn (c :: claims) era = if c.era = era then c :: claimsIn claims era
      else claimsIn claims era := by
  unfold claimsIn
  rw [List.filter_cons]
  simp

omit [DecidableEq A] in
theorem claimsIn_eq_nil {era : ℕ} (h : ∀ c ∈ claims, c.era ≠ era) : claimsIn claims era = [] := by
  unfold claimsIn
  rw [List.filter_eq_nil_iff]
  simpa using h

theorem Genesis.accounts (hs : Genesis s) : Accounts s [] where
  once := List.nodup_nil
  recorded := nofun
  budget p hp := by
    rw [hs.eraPayouts] at hp
    cases hp
  past p hp := by
    rw [hs.eraPayouts] at hp
    cases hp
  distinct p hp := by
    rw [hs.eraPayouts] at hp
    cases hp
  logged e R hR := by
    rw [hs.erasValidatorReward e] at hR
    cases hR
  kept := nofun
  claimed := nofun
  spent e R hR := by
    rw [hs.erasValidatorReward e] at hR
    cases hR

theorem Accounts.reward_lt (h : Accounts s claims) {e : ℕ} {R : ℕ × ℕ}
    (hR : s.erasValidatorReward e = some R) : e < endedEras s.activeEra := by
  obtain ⟨p, hp, rfl, -⟩ := h.logged e R hR
  exact h.past p hp

theorem Accounts.claim_lt (h : Accounts s claims) (hc : c ∈ claims) :
    c.era < endedEras s.activeEra := by
  obtain ⟨p, hp, hera⟩ := h.recorded c hc
  exact hera ▸ h.past p hp

variable (cfg) in
/-- **Accounts age.** Whatever a step does, the claims of before it stay accounted for. -/
theorem Accounts.age (h : Accounts s claims) (hclock : Clocked s.eras) (act : Act A) :
    Accounts (step cfg s act) claims := by
  obtain ⟨hended, hlog⟩ := step_log_cases cfg hclock act
  have hold : ∀ p ∈ s.eraPayouts, p ∈ (step cfg s act).eraPayouts := by
    intro p hp
    rcases hlog with hsame | ⟨-, q, -, hcons⟩
    · exact hsame ▸ hp
    · rw [hcons]
      exact List.mem_cons_of_mem q hp
  have hreward := fun {e : ℕ} {R : ℕ × ℕ}
    (hR : (step cfg s act).erasValidatorReward e = some R) =>
      step_reward_cases (fun _ _ => h.reward_lt) act hR
  -- nobody has claimed the era that a step ends
  have hnone : claimsIn claims (endedEras s.activeEra) = [] :=
    claimsIn_eq_nil fun c hc => Nat.ne_of_lt (h.claim_lt hc)
  -- a payout that a claim is for was stored before the step
  have hclaimed : ∀ c ∈ claims, ∀ R, (step cfg s act).erasValidatorReward c.era = some R →
      Kept c.era s (step cfg s act) := by
    intro c hc R hR
    rcases hreward hR with hkept | ⟨he, -⟩
    · exact hkept
    · exact absurd (h.claim_lt hc) (Nat.not_lt_of_le (Nat.le_of_eq he.symm))
  refine ⟨⟨h.once, ?_, ?_⟩, ?_, ?_, ?_, ?_, ?_, ?_⟩
  · intro c hc
    obtain ⟨p, hp, hera⟩ := h.recorded c hc
    exact ⟨p, hold p hp, hera⟩
  · intro p hp side
    rcases hlog with hsame | ⟨-, q, hq, hcons⟩
    · exact h.budget p (hsame ▸ hp) side
    · rw [hcons] at hp
      rcases List.mem_cons.mp hp with rfl | hp
      · rw [hq, creditedIn, hnone]
        exact Nat.zero_le _
      · exact h.budget p hp side
  · intro p hp
    rcases hlog with hsame | ⟨hlt, q, hq, hcons⟩
    · exact Nat.lt_of_lt_of_le (h.past p (hsame ▸ hp)) hended
    · rw [hcons] at hp
      rcases List.mem_cons.mp hp with rfl | hp
      · exact hq ▸ hlt
      · exact Nat.lt_of_lt_of_le (h.past p hp) hended
  · intro p hp q hq hera
    rcases hlog with hsame | ⟨-, r, hr, hcons⟩
    · exact h.distinct p (hsame ▸ hp) q (hsame ▸ hq) hera
    · rw [hcons] at hp hq
      rcases List.mem_cons.mp hp with rfl | hp' <;> rcases List.mem_cons.mp hq with rfl | hq'
      · rfl
      · have hlt := h.past q hq'
        omega
      · have hlt := h.past p hp'
        omega
      · exact h.distinct p hp' q hq' hera
  · intro e R hR
    rcases hreward hR with hkept | ⟨-, hlogged⟩
    · obtain ⟨p, hp, hamounts⟩ := h.logged e R (hkept.reward ▸ hR)
      exact ⟨p, hold p hp, hamounts⟩
    · exact hlogged
  · intro c hc R hR
    have hkept := hclaimed c hc R hR
    exact hkept.lastKept (h.kept c hc R (hkept.reward ▸ hR))
  · intro controller l' hl' c hc hstash R hR
    have hkept := hclaimed c hc R hR
    have hR' := hkept.reward ▸ hR
    have hle := h.kept c hc R hR'
    rcases step_ledger_cases cfg s act hl' with ⟨d, l, hl, hdescends⟩ | hnew
    · exact hdescends.mem (h.claimed d l hl c hc (hstash.trans hdescends.stash_eq) R hR') hle
    · rw [hnew, List.mem_range'_1]
      have hlt := h.claim_lt hc
      have hcurrent := hclock.endedEras_le
      omega
  · intro e R hR side
    rcases hreward hR with hkept | ⟨rfl, -⟩
    · rw [hkept.points]
      exact h.spent e R (hkept.reward ▸ hR) side
    · rw [creditedIn, hnone]
      exact Nat.zero_le _

omit [DecidableEq A] in
theorem creditedIn_cons (c : Claim A) (claims : List (Claim A)) (side : Side) (era : ℕ) :
    creditedIn (c :: claims) side era
      = (if c.era = era then c.credited side else 0) + creditedIn claims side era := by
  unfold creditedIn
  rw [claimsIn_cons]
  split <;> simp

omit [DecidableEq A] in
theorem paymentsIn_cons (c : Claim A) (claims : List (Claim A)) (era : ℕ) :
    paymentsIn (c :: claims) era
      = (if c.era = era then c.payments else 0) + paymentsIn claims era := by
  unfold paymentsIn
  rw [claimsIn_cons]
  split <;> simp

theorem earnedIn_cons (points : EraRewardPoints A) (c : Claim A) (claims : List (Claim A))
    (era : ℕ) : earnedIn points (c :: claims) era
      = (if c.era = era then (earned points c.validatorStash).parts else 0)
        + earnedIn points claims era := by
  unfold earnedIn
  rw [claimsIn_cons]
  split <;> simp

/-- The claims for an era that are all for different stashes earn at most the whole payout. -/
theorem earnedIn_le (points : EraRewardPoints A)
    (honce : (claims.map fun c => (c.validatorStash, c.era)).Nodup) (era : ℕ) :
    earnedIn points claims era ≤ 1000000000 := by
  have hstashes : ((claimsIn claims era).map Claim.validatorStash).Nodup := by
    have hsublist : ((claimsIn claims era).map fun c => (c.validatorStash, c.era)).Nodup :=
      honce.sublist (List.filter_sublist.map _)
    refine List.Nodup.of_map (fun stash => (stash, era)) ?_
    rw [List.map_map]
    refine (List.map_congr_left fun c hc => ?_) ▸ hsublist
    have hera : c.era = era := by simpa [claimsIn] using (List.mem_filter.mp hc).2
    rw [Function.comp_apply, hera]
  have hle := sum_earned_le points hstashes
  rw [List.map_map] at hle
  exact hle

/-- **A new claim.** It is for a stored payout and a stash that had not claimed it, the ledger of
the stash notes it, and it credits at most what the stash earned. -/
theorem Accounts.add (h : Accounts s claims) {R : ℕ × ℕ}
    (hR : s.erasValidatorReward c.era = some R)
    (hnew : ∀ d ∈ claims, d.validatorStash = c.validatorStash → d.era ≠ c.era)
    (hkept : s.lastKept ≤ c.era)
    (hclaimed : ∀ controller l, s.ledger controller = some l → c.validatorStash = l.stash →
      c.era ∈ l.claimedRewards)
    (hcredited : ∀ side, 1000000000 * c.credited side
      ≤ (earned (s.erasRewardPoints c.era) c.validatorStash).parts * side.of R
        + 1000000000 * c.payments) :
    Accounts s (c :: claims) := by
  have honce : ((c :: claims).map fun d => (d.validatorStash, d.era)).Nodup := by
    rw [List.map_cons, List.nodup_cons]
    refine ⟨fun hmem => ?_, h.once⟩
    obtain ⟨d, hd, heq⟩ := List.mem_map.mp hmem
    exact hnew d hd (Prod.mk.inj heq).1 (Prod.mk.inj heq).2
  have hspent : ∀ e R', s.erasValidatorReward e = some R' → ∀ side,
      1000000000 * creditedIn (c :: claims) side e
        ≤ earnedIn (s.erasRewardPoints e) (c :: claims) e * side.of R'
          + 1000000000 * paymentsIn (c :: claims) e := by
    intro e R' hR' side
    have hrest := h.spent e R' hR' side
    rw [creditedIn_cons, paymentsIn_cons, earnedIn_cons]
    by_cases he : c.era = e
    · subst he
      rw [hR] at hR'
      cases hR'
      have hfirst := hcredited side
      rw [if_pos rfl, if_pos rfl, if_pos rfl, Nat.add_mul, Nat.mul_add, Nat.mul_add]
      omega
    · rw [if_neg he, if_neg he, if_neg he, Nat.zero_add, Nat.zero_add, Nat.zero_add]
      exact hrest
  refine ⟨⟨honce, ?_, ?_⟩, h.past, h.distinct, h.logged, ?_, ?_, hspent⟩
  · intro d hd
    rcases List.mem_cons.mp hd with rfl | hd
    · obtain ⟨p, hp, hera, -⟩ := h.logged d.era R hR
      exact ⟨p, hp, hera⟩
    · exact h.recorded d hd
  · intro p hp side
    by_cases hera : c.era = p.era
    · have hbound := hspent c.era R hR side
      have hparts := earnedIn_le (s.erasRewardPoints c.era) honce c.era
      have hshare := Nat.mul_le_mul_right (side.of R) hparts
      have hamount : p.amount side = side.of R := by
        obtain ⟨q, hq, hqera, hsetter, hnative⟩ := h.logged c.era R hR
        have hpq : p = q := h.distinct p hp q hq (hera.symm.trans hqera.symm)
        rw [EraPayout.amount, hpq, hsetter, hnative]
      rw [hamount, ← hera]
      omega
    · rw [creditedIn_cons, paymentsIn_cons, if_neg hera, if_neg hera, Nat.zero_add, Nat.zero_add]
      exact h.budget p hp side
  · intro d hd R' hR'
    rcases List.mem_cons.mp hd with rfl | hd
    · exact hkept
    · exact h.kept d hd R' hR'
  · intro controller l hl d hd hstash R' hR'
    rcases List.mem_cons.mp hd with rfl | hd
    · exact hclaimed controller l hl hstash
    · exact h.claimed controller l hl d hd hstash R' hR'

/-- A payout that succeeds is accounted for. -/
theorem Accounts.payout (h : Accounts s claims) (hclock : Clocked s.eras)
    (hsound : Sound (s.horizon cfg) s.bonds) {origin : Origin A} {validatorStash : A} {era : ℕ}
    (hsucceeds : (payoutStakers cfg origin validatorStash era).succeeds s = true) :
    Accounts (step cfg s (.call origin (.payoutStakers validatorStash era)))
      (Claim.observed s (step cfg s (.call origin (.payoutStakers validatorStash era)))
        validatorStash era :: claims) := by
  have haged := h.age cfg hclock (.call origin (.payoutStakers validatorStash era))
  have hrun := Dispatch.run_eq_commit hsucceeds
  have hstep : step cfg s (.call origin (.payoutStakers validatorStash era))
      = (payoutStakers cfg origin validatorStash era).commit s := rfl
  rw [hstep] at haged ⊢
  generalize (payoutStakers cfg origin validatorStash era).commit s = s' at hrun haged ⊢
  obtain ⟨controller, l, currentEra, payout, -, -, hkept, hpayout, hbonded, hledger, hclaim,
    rfl⟩ := payoutStakers_spec hrun
  have hstash : l.stash = validatorStash := by
    obtain ⟨m, hm, hstash⟩ := hsound.paired.lookup hbonded
    have hlm : s.ledger controller = some m := hm
    rw [hledger] at hlm
    cases hlm
    exact hstash
  have heras : (paidOut cfg s validatorStash controller l era payout).eras = s.eras :=
    foldl_makePayout_eras _ _
  have hsame := Kept.of_eras heras era
  refine haged.add (hsame.reward.trans hpayout) ?_ (hsame.lastKept hkept) ?_ ?_
  · intro d hd hdstash hdera
    have hsameEra : d.era = era := hdera
    have hmem := h.claimed controller l hledger d hd (hdstash.trans hstash.symm) payout
      (hsameEra ▸ hpayout)
    exact hclaim (mem_retainedRewards.mpr ⟨hsameEra ▸ hmem, hkept⟩)
  · intro controller' l' hl' hl'stash
    obtain ⟨m, hm, hmstash, hmclaims⟩ := foldl_makePayout_ledger _ hl'
    simp only [noteClaim, Function.update_apply] at hm
    split at hm
    · cases hm
      rw [hmclaims]
      exact mem_claim.mpr (.inl rfl)
    · rename_i hne
      -- another controller's ledger is of another stash
      have hkey : m.stash = l.stash := by
        rw [← hmstash, hstash]
        exact hl'stash.symm
      exact absurd (hsound.paired.cell_eq hm hledger hkey) hne
  · intro side
    have hpayments : paymentsFor s validatorStash era
        = paymentsOf s validatorStash l.stash era payout := by
      simp only [paymentsFor, hbonded, Option.bind_some, hledger, hpayout]
    have hnoted : (noteClaim s controller l era).issued side = s.issued side := by
      cases side <;> rfl
    obtain ⟨-, hgrows⟩ := foldl_makePayout_grows cfg side
      (paymentsOf s validatorStash l.stash era payout) (noteClaim s controller l era)
    have hbound := sum_paymentsOf_le s validatorStash l.stash era payout side
    show 1000000000 * ((paidOut cfg s validatorStash controller l era payout).issued side
        - s.issued side)
      ≤ (earned ((paidOut cfg s validatorStash controller l era payout).erasRewardPoints era)
          validatorStash).parts * side.of payout
        + 1000000000 * (paymentsFor s validatorStash era).length
    rw [hsame.points, hpayments, ← hstash]
    rw [← hstash] at hgrows hbound
    unfold paidOut
    omega

/-- One step. -/
theorem Accounts.watch (h : Accounts s claims) (hclock : Clocked s.eras)
    (hsound : Sound (s.horizon cfg) s.bonds) (act : Act A) :
    Accounts (watch cfg (s, claims) act).1 (Staking.watch cfg (s, claims) act).2 := by
  unfold Staking.watch observe
  dsimp only
  split
  · split
    · rename_i hsucceeds
      exact h.payout hclock hsound hsucceeds
    · exact h.age cfg hclock _
  · exact h.age cfg hclock act

end Accounts

omit [DecidableEq A] in
/-- Watching does not change the run. -/
theorem run_watch_fst [DecidableEq A] (x : State A × List (Claim A)) (acts : List (Act A)) :
    (Machine.run (watch cfg) x acts).1 = Machine.run (step cfg) x.1 acts := by
  induction acts generalizing x with
  | nil => rfl
  | cons act acts ih => exact ih (watch cfg x act)

/-- **Over every run, no reward of an era is paid twice for a validator, and no era pays more than
it recorded**, up to one unit for each payment. -/
theorem rewards_of_run {s : State A} (hs : Genesis s) (acts : List (Act A)) :
    WithinBudget (Machine.run (step cfg) s acts) (Machine.run (watch cfg) (s, []) acts).2 := by
  have hrun : Clocked (Machine.run (watch cfg) (s, []) acts).1.eras ∧
      Sound ((Machine.run (watch cfg) (s, []) acts).1.horizon cfg)
        (Machine.run (watch cfg) (s, []) acts).1.bonds ∧
      Accounts (Machine.run (watch cfg) (s, []) acts).1
        (Machine.run (watch cfg) (s, []) acts).2 := by
    refine Machine.run_invariant_always
      (P := fun x : State A × List (Claim A) => Clocked x.1.eras ∧
        Sound (x.1.horizon cfg) x.1.bonds ∧ Accounts x.1 x.2) ?_ ?_ acts
    · rintro ⟨t, claims⟩ act ⟨hclock, hsound, haccounts⟩
      exact ⟨(hclock.step cfg act).1, hsound.step act, haccounts.watch hclock hsound act⟩
    · exact ⟨hs.clocked, hs.consistent.1, hs.accounts⟩
  have hbudget := hrun.2.2.toWithinBudget
  rwa [run_watch_fst] at hbudget

/-- A validator bonds, earns points in the first era, and its reward is asked for twice. -/
def claimedTwice : List (Act ℕ) :=
  [.call (.signed 1) (.bond 2 1000 .Stash), .genesisSessions sampleElection sampleElection,
    .onFinalize 1000, .rewardByIds [(1, 20)], .rotateSession 4000 sampleElection,
    .call (.signed 3) (.payoutStakers 1 0), .call (.signed 4) (.payoutStakers 1 0)]

theorem rewards_claimedTwice : WithinBudget
    (Machine.run (step (sampleConfig 4032 144000 fun _ _ eraDuration => eraDuration))
      sampleGenesis claimedTwice)
    (Machine.run (watch (sampleConfig 4032 144000 fun _ _ eraDuration => eraDuration))
      (sampleGenesis, []) claimedTwice).2 :=
  rewards_of_run sampleGenesis_genesis claimedTwice

end Setheum.Staking
