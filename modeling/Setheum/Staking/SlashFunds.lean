import Mathlib.Algebra.BigOperators.Group.Finset.Piecewise
import Setheum.Staking.Offences

/-!
# Where slashed funds go

`apply_slash` burns what it takes from the stashes, and the imbalance this leaves is resolved: a
part of it is deposited with the reporters, in equal shares, and all the rest with the handler of
slashes. Only a share that the currency refuses to deposit is lost.

* `Pays` — what the reporters and the handler make of an imbalance.
* `applySlash_conserves` — the accounts involved keep what they hold, and the issuance is kept.
-/

set_option autoImplicit false

namespace Setheum.Staking

variable {A : Type} [DecidableEq A] {cfg : OffenceConfig A}

/-! ## What accounts hold -/

def Native.total (n : Native A) (who : A) : ℕ := n.free who + n.reserved who

/-- What some accounts hold together. -/
def Native.holdings (n : Native A) (accounts : Finset A) : ℕ := ∑ who ∈ accounts, n.total who

theorem sum_update {accounts : Finset A} {f : A → ℕ} {who : A} (h : who ∈ accounts) (v : ℕ) :
    ∑ a ∈ accounts, Function.update f who v a + f who = ∑ a ∈ accounts, f a + v := by
  have hsplit := Finset.add_sum_erase accounts f h
  rw [Finset.sum_update_of_mem h, ← hsplit, Finset.sdiff_singleton_eq_erase]
  omega

variable {accounts : Finset A}

theorem holdings_mint (allowed : Bool) {who : A} (h : who ∈ accounts) (amount : ℕ) (s : State A) :
    (mint allowed who amount s).native.holdings accounts
        = s.native.holdings accounts + (if allowed then amount else 0) ∧
      (mint allowed who amount s).native.issuance
        = s.native.issuance + (if allowed then amount else 0) := by
  cases allowed with
  | false => exact ⟨rfl, rfl⟩
  | true =>
      have htotal : (mint true who amount s).native.total
          = Function.update s.native.total who (s.native.total who + amount) := by
        funext a
        by_cases ha : a = who
        · subst ha
          simp only [mint, Native.total, if_true, Function.update_self]
          omega
        · simp only [mint, Native.total, if_true, Function.update_of_ne ha]
      have hsum := sum_update (f := s.native.total) h (s.native.total who + amount)
      refine ⟨?_, rfl⟩
      simp only [Native.holdings, htotal, if_true]
      omega

omit [DecidableEq A] in
theorem taken_le (stash : A) (value : ℕ) (s : State A) :
    taken stash value s ≤ value ∧ taken stash value s ≤ s.native.total stash := by
  unfold taken Native.total
  dsimp only
  omega

theorem holdings_burn {stash : A} (h : stash ∈ accounts) (value : ℕ) (s : State A) :
    (burn stash value s).native.holdings accounts + taken stash value s
        = s.native.holdings accounts ∧
      (burn stash value s).native.issuance = s.native.issuance - taken stash value s := by
  have htotal : (burn stash value s).native.total
      = Function.update s.native.total stash (s.native.total stash - taken stash value s) := by
    funext a
    by_cases ha : a = stash
    · subst ha
      simp only [burn, Native.total, taken, Function.update_self]
      omega
    · simp only [burn, Native.total, Function.update_of_ne ha]
  have hsum := sum_update (f := s.native.total) h (s.native.total stash - taken stash value s)
  have hle := (taken_le stash value s).2
  refine ⟨?_, rfl⟩
  simp only [Native.holdings, htotal]
  omega

/-! ## Collecting -/

/-- The imbalance is what the accounts and the issuance lack; what was missing from a stash is
missing from the reward. -/
structure Collects (accounts : Finset A) (n : Native A) (payout : ℕ) (c : Collected × State A) :
    Prop where
  holdings : c.2.native.holdings accounts + c.1.imbalance = n.holdings accounts
  issuance : c.2.native.issuance + c.1.imbalance = n.issuance
  rewardPayout : c.1.rewardPayout ≤ payout
  untouched : ∀ a, a ∉ accounts → c.2.native.free a = n.free a ∧ c.2.native.reserved a = n.reserved a

theorem Collects.collectSlash {n : Native A} {payout : ℕ} {c : Collected × State A}
    (h : Collects accounts n payout c) (hcovered : n.holdings accounts ≤ n.issuance) {x : A × ℕ}
    (hx : x.1 ∈ accounts) : Collects accounts n payout (collectSlash cfg c x) := by
  obtain ⟨collected, s⟩ := c
  obtain ⟨stash, value⟩ := x
  have hmoved : ∀ (controller : A) (l : StakingLedger A) (v : ℕ), Collects accounts n payout
      (⟨collected.rewardPayout - (v - taken stash v s), collected.imbalance + taken stash v s⟩,
        updateLedger cfg.toConfig controller l (burn stash v s)) := by
    intro controller l v
    have hholdings : s.native.holdings accounts + collected.imbalance = n.holdings accounts :=
      h.holdings
    have hissuance : s.native.issuance + collected.imbalance = n.issuance := h.issuance
    obtain ⟨hburn, hburnt⟩ : _ ∧ (burn stash v s).native.issuance = _ := holdings_burn hx v s
    refine ⟨?_, ?_, (Nat.sub_le _ _).trans h.rewardPayout, fun a ha => ?_⟩
    · show (burn stash v s).native.holdings accounts
        + (collected.imbalance + taken stash v s) = n.holdings accounts
      dsimp only at hburn
      omega
    · show (burn stash v s).native.issuance
        + (collected.imbalance + taken stash v s) = n.issuance
      dsimp only at hburn hburnt
      omega
    · have hne : a ≠ stash := fun heq => ha (heq ▸ hx)
      simp only [updateLedger, burn, Function.update_of_ne hne]
      exact h.untouched a ha
  unfold Staking.collectSlash
  dsimp only
  split
  · exact h
  · split
    · exact h
    · split
      · exact h
      · exact hmoved _ _ _

variable (cfg) in
theorem collects_foldl {targets : List (A × ℕ)} (htargets : ∀ x ∈ targets, x.1 ∈ accounts)
    {n : Native A} {payout : ℕ} (hcovered : n.holdings accounts ≤ n.issuance)
    {c : Collected × State A} (h : Collects accounts n payout c) :
    Collects accounts n payout (targets.foldl (collectSlash cfg) c) := by
  induction targets generalizing c with
  | nil => exact h
  | cons x targets ih =>
      exact ih (fun y hy => htargets y (List.mem_cons_of_mem x hy))
        (h.collectSlash hcovered (htargets x List.mem_cons_self))

/-! ## Paying -/

/-- Funds of an amount, less what was refused, come to the accounts and to the issuance. -/
structure Pays (accounts : Finset A) (amount refused : ℕ) (s t : State A) : Prop where
  holdings : t.native.holdings accounts + refused = s.native.holdings accounts + amount
  issuance : t.native.issuance + refused = s.native.issuance + amount
  untouched : ∀ a, a ∉ accounts →
    t.native.free a = s.native.free a ∧ t.native.reserved a = s.native.reserved a

omit [DecidableEq A] in
theorem Pays.trans {amount amount' refused refused' : ℕ} {s t u : State A}
    (h : Pays accounts amount refused s t) (h' : Pays accounts amount' refused' t u) :
    Pays accounts (amount + amount') (refused + refused') s u := by
  refine ⟨?_, ?_, fun a ha => ?_⟩
  · have hfirst := h.holdings
    have hsecond := h'.holdings
    omega
  · have hfirst := h.issuance
    have hsecond := h'.issuance
    omega
  · exact ⟨(h'.untouched a ha).1.trans (h.untouched a ha).1,
      (h'.untouched a ha).2.trans (h.untouched a ha).2⟩

theorem pays_mint (allowed : Bool) {who : A} (h : who ∈ accounts) (amount : ℕ) (s : State A) :
    Pays accounts amount (if allowed then 0 else amount) s (mint allowed who amount s) := by
  obtain ⟨hholdings, hissuance⟩ := holdings_mint allowed h amount s
  refine ⟨?_, ?_, fun a ha => ?_⟩
  · rw [hholdings]
    cases allowed <;> simp
  · rw [hissuance]
    cases allowed <;> simp
  · have hne : a ≠ who := fun heq => ha (heq ▸ h)
    unfold mint
    split
    · exact ⟨Function.update_of_ne hne _ _, rfl⟩
    · exact ⟨rfl, rfl⟩

variable (cfg) in
/-- Every reporter gets its share, or it is refused. -/
theorem pays_reporters {reporters : List A} (hreporters : ∀ r ∈ reporters, r ∈ accounts)
    (share : ℕ) (s : State A) :
    ∃ refused ≤ reporters.length * share,
      Pays accounts (reporters.length * share) refused s
        (reporters.foldl (fun t r => depositCreating cfg.toConfig r share t) s) ∧
      ((∀ n who amount, cfg.depositCreatingAllowed n who amount = true) → refused = 0) := by
  induction reporters generalizing s with
  | nil => exact ⟨0, Nat.zero_le _, by simpa using ⟨rfl, rfl, fun _ _ => ⟨rfl, rfl⟩⟩, fun _ => rfl⟩
  | cons r reporters ih =>
      obtain ⟨refused, hle, hpays, hall⟩ := ih (fun q hq => hreporters q (List.mem_cons_of_mem r hq))
        (depositCreating cfg.toConfig r share s)
      have hfirst := pays_mint (cfg.depositCreatingAllowed s.native r share)
        (hreporters r List.mem_cons_self) share s
      have hlength : (r :: reporters).length * share = share + reporters.length * share := by
        rw [List.length_cons, Nat.succ_mul, Nat.add_comm]
      rw [hlength]
      refine ⟨_, ?_, hfirst.trans hpays, fun hallowed => ?_⟩
      · split
        · omega
        · omega
      · rw [hall hallowed, hallowed]
        rfl

variable (cfg) in
/-- **The imbalance goes to the reporters and the handler of slashes**, but for refused rewards. -/
theorem pays_payReporters (collected : Collected) {reporters : List A}
    (hreporters : ∀ r ∈ reporters, r ∈ accounts) (hslash : cfg.slash ∈ accounts) (s : State A) :
    ∃ refused ≤ min collected.rewardPayout collected.imbalance,
      Pays accounts collected.imbalance refused s (payReporters cfg collected reporters s) ∧
      ((∀ n who amount, cfg.depositCreatingAllowed n who amount = true) → refused = 0) := by
  unfold payReporters onUnbalanced
  split
  · exact ⟨0, Nat.zero_le _, by simpa using pays_mint true hslash collected.imbalance s,
      fun _ => rfl⟩
  · dsimp only
    generalize hpayout : min collected.rewardPayout collected.imbalance = payout
    have hshares : reporters.length * (payout / reporters.length) ≤ payout := Nat.mul_div_le _ _
    have hpaid : payout ≤ collected.imbalance := hpayout ▸ Nat.min_le_right _ _
    obtain ⟨refused, hle, hpays, hall⟩ :=
      pays_reporters cfg hreporters (payout / reporters.length) s
    have hrest := pays_mint true hslash (collected.imbalance - payout
      + (payout - reporters.length * (payout / reporters.length)))
      (reporters.foldl
        (fun t r => depositCreating cfg.toConfig r (payout / reporters.length) t) s)
    have hboth := hpays.trans hrest
    have hamount : reporters.length * (payout / reporters.length)
        + (collected.imbalance - payout
          + (payout - reporters.length * (payout / reporters.length))) = collected.imbalance := by
      omega
    rw [hamount] at hboth
    exact ⟨refused, hle.trans hshares, hboth, hall⟩

/-! ## The slash -/

/-- **Applying a slash conserves funds.** The accounts involved hold together what they held before,
less the rewards that the currency refuses to deposit, which come to no more than the payout; the
issuance changes by as much, and no other account is touched. -/
theorem applySlash_conserves (cfg : OffenceConfig A) (slash : PendingSlash A) (s : State A)
    {accounts : Finset A} (htargets : ∀ x ∈ slash.targets, x.1 ∈ accounts)
    (hreporters : ∀ r ∈ slash.reporters, r ∈ accounts) (hslash : cfg.slash ∈ accounts)
    (hcovered : s.native.holdings accounts ≤ s.native.issuance) :
    ∃ refused ≤ slash.payout,
      (applySlash cfg slash s).native.holdings accounts + refused = s.native.holdings accounts ∧
      (applySlash cfg slash s).native.issuance + refused = s.native.issuance ∧
      (∀ a, a ∉ accounts → (applySlash cfg slash s).native.free a = s.native.free a ∧
        (applySlash cfg slash s).native.reserved a = s.native.reserved a) ∧
      ((∀ n who amount, cfg.depositCreatingAllowed n who amount = true) → refused = 0) := by
  have hcollects := collects_foldl cfg htargets hcovered
    (c := (⟨slash.payout, 0⟩, s)) ⟨rfl, rfl, le_refl _, fun _ _ => ⟨rfl, rfl⟩⟩
  unfold applySlash
  generalize slash.targets.foldl (collectSlash cfg) (⟨slash.payout, 0⟩, s) = c at hcollects ⊢
  obtain ⟨collected, t⟩ := c
  obtain ⟨refused, hle, hpays, hall⟩ := pays_payReporters cfg collected hreporters hslash t
  refine ⟨refused, hle.trans ((Nat.min_le_left _ _).trans hcollects.rewardPayout), ?_, ?_,
    fun a ha => ⟨?_, ?_⟩, hall⟩
  · exact hpays.holdings.trans hcollects.holdings
  · exact hpays.issuance.trans hcollects.issuance
  · exact (hpays.untouched a ha).1.trans (hcollects.untouched a ha).1
  · exact (hpays.untouched a ha).2.trans (hcollects.untouched a ha).2

/-- Account 1 has bonded half of its funds under account 3. -/
def sampleBonded : State ℕ :=
  updateLedger sampleOffenceConfig.toConfig 3 ⟨1, 500, 500, [], []⟩
    { sampleGenesis with
      bonded := Function.update (fun _ => none) 1 (some 3)
      native := ⟨fun _ => 1000, fun _ => 0, 4000⟩ }

theorem applySlash_conserves_sample :
    let slash : PendingSlash ℕ := ⟨⟨1, 100, [(2, 50)], 10⟩, [3]⟩
    ∃ refused ≤ 10,
      (applySlash sampleOffenceConfig slash sampleBonded).native.holdings {0, 1, 2, 3} + refused
        = sampleBonded.native.holdings {0, 1, 2, 3} ∧
      (applySlash sampleOffenceConfig slash sampleBonded).native.issuance + refused = 4000 ∧
      (∀ a, a ∉ ({0, 1, 2, 3} : Finset ℕ) →
        (applySlash sampleOffenceConfig slash sampleBonded).native.free a = 1000 ∧
        (applySlash sampleOffenceConfig slash sampleBonded).native.reserved a = 0) ∧
      ((∀ n who amount, sampleOffenceConfig.depositCreatingAllowed n who amount = true) →
        refused = 0) :=
  applySlash_conserves sampleOffenceConfig ⟨⟨1, 100, [(2, 50)], 10⟩, [3]⟩ sampleBonded
    (by decide) (by decide) (by decide) (by decide)

end Setheum.Staking
