import Mathlib.Algebra.BigOperators.Ring.Finset
import Setheum.Serp.Elasticity

/-!
# What an expansion issues

`onSerpup` takes a ratio of the amount for each of four accounts and issues the four parts one
after the other. It rounds each part for itself, and drops the outcome of each issue step, so it
succeeds whatever became of them.

* `run_onSerpup` — it succeeds for every stable currency and positive amount.
* `issuance_issueAll`, `credited_issueAll` — all that it issues are the parts not refused.
* `exactOrNothing_iff` — the amount is issued exactly if what rounding adds makes up for what it
  drops and for what the ledger refuses.

The amount itself is a hundredth of the total issuance multiplied by the total issuance; the
deviation of the price only decides the direction.

* `proportionate_iff` — which is in proportion to the deviation only for an issuance from 100 to
  199 units whose price is under a hundredth of its peg.
-/

set_option autoImplicit false

namespace Setheum.Serp

variable {A : Type} [DecidableEq A] (cfg : Config A)

/-! ## The parts -/

omit [DecidableEq A] in
/-- The accounts an expansion is delivered to, each with its ratio, in their order. -/
def serpupShares : List (A × ℕ) :=
  [(cfg.accountId, cfg.serplusSerpupRatio), (cfg.settPayTreasuryAcc, cfg.settPaySerpupRatio),
    (cfg.setheumTreasuryAcc, cfg.setheumTreasurySerpupRatio),
    (cfg.charityFundAcc, cfg.charityFundSerpupRatio)]

omit [DecidableEq A] in
def serpupRatios : List ℕ := (serpupShares cfg).map Prod.snd

/-- The four destinations; two of them may be one account. -/
def destinations : Finset A := ((serpupShares cfg).map Prod.fst).toFinset

/-- The ledger after one issue step, which changes nothing if it is refused. -/
def issue (c : CurrencyId) (amount : ℕ) (l : Ledger CurrencyId A) (share : A × ℕ) :
    Ledger CurrencyId A :=
  match Ledger.deposit cfg.rules c share.1 (Permill.mul share.2 amount) l with
  | .ok l' => l'
  | .error _ => l

/-- What one issue step leaves out. -/
def refusedPart (c : CurrencyId) (amount : ℕ) (l : Ledger CurrencyId A) (share : A × ℕ) : ℕ :=
  match Ledger.deposit cfg.rules c share.1 (Permill.mul share.2 amount) l with
  | .ok _ => 0
  | .error _ => Permill.mul share.2 amount

/-- The parts that the ledger refuses, one after the other. -/
def refused (c : CurrencyId) (amount : ℕ) : Ledger CurrencyId A → List (A × ℕ) → ℕ
  | _, [] => 0
  | l, share :: shares =>
      refusedPart cfg c amount l share + refused c amount (issue cfg c amount l share) shares

/-- An issue step adds its part or leaves it out. -/
theorem issue_eq (c : CurrencyId) (amount : ℕ) (l : Ledger CurrencyId A) (share : A × ℕ) :
    (Ledger.deposit cfg.rules c share.1 (Permill.mul share.2 amount) l
        = .ok (issue cfg c amount l share) ∧ refusedPart cfg c amount l share = 0) ∨
      (issue cfg c amount l share = l ∧
        refusedPart cfg c amount l share = Permill.mul share.2 amount) := by
  unfold issue refusedPart
  cases Ledger.deposit cfg.rules c share.1 (Permill.mul share.2 amount) l with
  | ok l' => exact .inl ⟨rfl, rfl⟩
  | error e => exact .inr ⟨rfl, rfl⟩

/-- **The issuance grows by the parts that are not refused.** -/
theorem issuance_issueAll (c : CurrencyId) (amount : ℕ) (shares : List (A × ℕ))
    (l : Ledger CurrencyId A) :
    (shares.foldl (issue cfg c amount) l).issuance c + refused cfg c amount l shares
      = l.issuance c + (shares.map fun share => Permill.mul share.2 amount).sum := by
  induction shares generalizing l with
  | nil => rfl
  | cons share shares ih =>
      have hrest := ih (issue cfg c amount l share)
      simp only [List.foldl_cons, List.map_cons, List.sum_cons, refused]
      rcases issue_eq cfg c amount l share with ⟨hok, hzero⟩ | ⟨hsame, hpart⟩
      · have hissuance := Ledger.deposit_issuance hok c
        rw [if_pos rfl] at hissuance
        omega
      · rw [hsame] at hrest ⊢
        omega

/-- **So do the balances of the accounts that are issued to, taken together.** -/
theorem credited_issueAll (c : CurrencyId) (amount : ℕ) {accounts : Finset A}
    {shares : List (A × ℕ)} (hshares : ∀ share ∈ shares, share.1 ∈ accounts)
    (l : Ledger CurrencyId A) :
    ∑ a ∈ accounts, (shares.foldl (issue cfg c amount) l).free c a
        + refused cfg c amount l shares
      = ∑ a ∈ accounts, l.free c a + (shares.map fun share => Permill.mul share.2 amount).sum := by
  induction shares generalizing l with
  | nil => rfl
  | cons share shares ih =>
      have hrest := ih (fun s hs => hshares s (List.mem_cons_of_mem share hs))
        (issue cfg c amount l share)
      simp only [List.foldl_cons, List.map_cons, List.sum_cons, refused]
      rcases issue_eq cfg c amount l share with ⟨hok, hzero⟩ | ⟨hsame, hpart⟩
      · have hfree : ∑ a ∈ accounts, (issue cfg c amount l share).free c a
            = ∑ a ∈ accounts, l.free c a + Permill.mul share.2 amount := by
          rw [Finset.sum_congr rfl fun a _ => Ledger.deposit_free hok c a,
            Finset.sum_add_distrib]
          simp [hshares share List.mem_cons_self]
        omega
      · rw [hsame] at hrest ⊢
        omega

/-! ## Runs -/

variable {cfg}

theorem deliverSerpup_ok {ratio : ℕ} {account : A} {amount : ℕ} {c : CurrencyId}
    {s s' : State A} {u : Unit} (h : (deliverSerpup cfg ratio account amount c).run s = .ok u s') :
    s'.ledger = issue cfg c amount s.ledger (account, ratio) := by
  simp only [deliverSerpup, Dispatch.run_bind_ok, Dispatch.run_ignore_ok, depositEvent,
    Dispatch.run_modify_ok] at h
  obtain ⟨_, s₁, rfl, rfl⟩ := h
  simp only [issuePropper, deposit, onLedger, issue]
  cases hdeposit : Ledger.deposit cfg.rules c account (Permill.mul ratio amount) s.ledger with
  | ok l =>
      rw [Dispatch.commit_of_ok (a := ()) (Dispatch.run_onComponent_ok.mpr ⟨l, hdeposit, rfl⟩)]
  | error e =>
      rw [Dispatch.commit_of_error
        (Dispatch.run_onComponent_error.mpr ⟨⟨e, hdeposit, rfl⟩, rfl⟩)]

theorem neverFails_onSerpup {c : CurrencyId} {amount : ℕ} (hc : c ∈ cfg.stableCurrencyIds)
    (hamount : 0 < amount) : Dispatch.NeverFails (onSerpup cfg c amount) := by
  refine Dispatch.neverFails_bind (Dispatch.neverFails_ensure hc) fun _ => ?_
  refine Dispatch.neverFails_bind (Dispatch.neverFails_ensure hamount.ne') fun _ => ?_
  refine Dispatch.neverFails_bind (neverFails_deliverSerpup _ _ _ _) fun _ => ?_
  refine Dispatch.neverFails_bind (neverFails_deliverSerpup _ _ _ _) fun _ => ?_
  refine Dispatch.neverFails_bind (neverFails_deliverSerpup _ _ _ _) fun _ => ?_
  refine Dispatch.neverFails_bind (neverFails_deliverSerpup _ _ _ _) fun _ => ?_
  exact neverFails_depositEvent _

/-- **An expansion of a stable currency by a positive amount succeeds**, and issues what it can of
the four parts. -/
theorem run_onSerpup {c : CurrencyId} {amount : ℕ} (hc : c ∈ cfg.stableCurrencyIds)
    (hamount : 0 < amount) (s : State A) :
    ∃ s', (onSerpup cfg c amount).run s = .ok () s' ∧
      s'.ledger = (serpupShares cfg).foldl (issue cfg c amount) s.ledger := by
  have hrun := Dispatch.run_eq_commit (neverFails_onSerpup hc hamount s)
  refine ⟨_, hrun, ?_⟩
  generalize Dispatch.commit (onSerpup cfg c amount) s = s' at hrun ⊢
  simp only [onSerpup, Dispatch.run_bind_ok, Dispatch.run_ensure_ok, getSerplusSerpup,
    getSettpaySerpup, getTreasurySerpup, getCharityFundSerpup, depositEvent,
    Dispatch.run_modify_ok] at hrun
  obtain ⟨_, _, ⟨-, rfl⟩, _, _, ⟨-, rfl⟩, _, s₁, h₁, _, s₂, h₂, _, s₃, h₃, _, s₄, h₄, rfl⟩ := hrun
  simp only [serpupShares, List.foldl_cons, List.foldl_nil]
  rw [deliverSerpup_ok h₄, deliverSerpup_ok h₃, deliverSerpup_ok h₂, deliverSerpup_ok h₁]

/-! ## All or nothing -/

/-- Either the call fails and no balance or issuance changes, or exactly the amount is issued, all
of it to the four destinations. -/
def ExactOrNothing (cfg : Config A) (c : CurrencyId) (amount : ℕ) (s : State A) : Prop :=
  match (onSerpup cfg c amount).run s with
  | .error _ s' => s'.ledger = s.ledger
  | .ok _ s' =>
      s'.ledger.issuance c = s.ledger.issuance c + amount ∧
        ∑ a ∈ destinations cfg, s'.ledger.free c a
          = ∑ a ∈ destinations cfg, s.ledger.free c a + amount

/-- In millionths: what the four parts lose by rounding and the ledger refuses of them is what they
gain by rounding. -/
def PartsFit (cfg : Config A) (c : CurrencyId) (amount : ℕ) (l : Ledger CurrencyId A) : Prop :=
  ((serpupRatios cfg).map fun ratio => Permill.remainder ratio amount).sum
      + Permill.accuracy * refused cfg c amount l (serpupShares cfg)
    = Permill.accuracy * (serpupRatios cfg).countP fun ratio => Permill.RoundsUp ratio amount

instance (c : CurrencyId) (amount : ℕ) (l : Ledger CurrencyId A) :
    Decidable (PartsFit cfg c amount l) := inferInstanceAs (Decidable (_ = _))

/-- The parts that are not refused add up to the amount. -/
theorem partsFit_iff (hratios : (serpupRatios cfg).sum = Permill.accuracy) (c : CurrencyId)
    (amount : ℕ) (l : Ledger CurrencyId A) :
    PartsFit cfg c amount l ↔
      ((serpupShares cfg).map fun share => Permill.mul share.2 amount).sum
        = amount + refused cfg c amount l (serpupShares cfg) := by
  have hsum := Permill.sum_mul (serpupRatios cfg) amount
  have hparts : (serpupRatios cfg).map (fun ratio => Permill.mul ratio amount)
      = (serpupShares cfg).map fun share => Permill.mul share.2 amount := by
    simp [serpupRatios]
  rw [hratios, hparts] at hsum
  unfold PartsFit
  unfold Permill.accuracy at *
  omega

/-- **An expansion issues exactly its amount if and only if what rounding adds to the four parts
makes up for what it drops and for the parts that are refused.** -/
theorem exactOrNothing_iff (cfg : Config A)
    (hratios : (serpupRatios cfg).sum = Permill.accuracy) (c : CurrencyId)
    (hc : c ∈ cfg.stableCurrencyIds) (amount : ℕ) (hamount : 0 < amount) (s : State A) :
    ExactOrNothing cfg c amount s ↔ PartsFit cfg c amount s.ledger := by
  obtain ⟨s', hrun, hledger⟩ := run_onSerpup hc hamount s
  have hissuance := issuance_issueAll cfg c amount (serpupShares cfg) s.ledger
  have hshares : ∀ share ∈ serpupShares cfg, share.1 ∈ destinations cfg :=
    fun share hs => List.mem_toFinset.mpr (List.mem_map_of_mem hs)
  have hcredited := credited_issueAll cfg c amount hshares s.ledger
  rw [← hledger] at hissuance hcredited
  rw [partsFit_iff hratios]
  unfold ExactOrNothing
  rw [hrun]
  constructor
  · rintro ⟨htotal, -⟩
    omega
  · intro hfit
    constructor
    · omega
    · omega

theorem exactOrNothing_ten :
    PartsFit sampleConfig (.Token .USDJ) 10 sampleLedger ∧
      ExactOrNothing sampleConfig (.Token .USDJ) 10 (sampleState (10 ^ 18)) :=
  have hfit : PartsFit sampleConfig (.Token .USDJ) 10 sampleLedger := by decide +kernel
  ⟨hfit, (exactOrNothing_iff sampleConfig (by decide) (.Token .USDJ) (by decide) 10 (by decide)
    (sampleState (10 ^ 18))).mpr hfit⟩

/-- **Of an expansion by four, three are issued.** -/
theorem issues_three_of_four :
    ¬ ExactOrNothing sampleConfig (.Token .USDJ) 4 (sampleState (10 ^ 18)) := by
  have hmem : CurrencyId.Token .USDJ ∈ sampleConfig.stableCurrencyIds := by decide
  obtain ⟨s', hrun, hledger⟩ := run_onSerpup hmem (by decide : 0 < 4) (sampleState (10 ^ 18))
  unfold ExactOrNothing
  rw [hrun]
  rintro ⟨hissuance, -⟩
  rw [hledger] at hissuance
  revert hissuance
  decide +kernel

/-! ## The size of a correction -/

/-- How far the price is from the peg in percent, truncated. -/
def deviationPercent (market peg : ℕ) : ℕ := ((100 : ℤ) - (market / (peg / 100) : ℕ)).natAbs

/-- The supply is moved by the deviation in percent times a hundredth of the total issuance, in
whichever order this is rounded down, and not contracted by more than there is. -/
def Proportionate (c : CurrencyId) (market peg : ℕ) (s s' : State A) : Prop :=
  ∃ amount, deviationPercent market peg * (s.ledger.issuance c / 100) ≤ amount ∧
    amount ≤ deviationPercent market peg * s.ledger.issuance c / 100 ∧
    (s'.events.head? = some (.CurrencySerpedUp amount c) ∨
      s'.events.head? = some (.CurrencySerpDownTriggered amount c) ∧
        amount ≤ s.ledger.issuance c)

/-- The last event of an expansion is its own. -/
theorem events_onSerpup {c : CurrencyId} {amount : ℕ} {s s' : State A} {u : Unit}
    (h : (onSerpup cfg c amount).run s = .ok u s') :
    amount ≠ 0 ∧ s'.events.head? = some (.CurrencySerpedUp amount c) := by
  simp only [onSerpup, Dispatch.run_bind_ok, Dispatch.run_ensure_ok, depositEvent,
    Dispatch.run_modify_ok] at h
  obtain ⟨_, _, -, _, _, ⟨hne, -⟩, _, _, -, _, _, -, _, _, -, _, _, -, rfl⟩ := h
  exact ⟨hne, rfl⟩

/-- A hundredth of a total, times the total, is at most some percentage of it, up to all of it,
only where the hundredth is one and the percentage all. -/
theorem hundredth_mul_le_iff {percentage total : ℕ} (hne : total / 100 * total ≠ 0) :
    total / 100 * total ≤ (100 - percentage) * total / 100 ↔
      100 ≤ total ∧ total < 200 ∧ percentage = 0 := by
  have hpos : 0 < total := Nat.pos_of_ne_zero fun h => hne (by rw [h])
  have hhundred : total / 100 ≠ 0 := fun h => hne (by rw [h, Nat.zero_mul])
  rw [Nat.le_div_iff_mul_le (by decide : 0 < 100), Nat.mul_right_comm]
  constructor
  · intro hle
    have hpercent : total / 100 * 100 ≤ 100 - percentage := Nat.le_of_mul_le_mul_right hle hpos
    omega
  · rintro ⟨h100, h200, rfl⟩
    exact Nat.mul_le_mul_right total (by omega)

/-- **Whenever `serpTes` acts, the correction is in proportion to the deviation if and only if the
total issuance is from 100 to 199 units and the market price under a hundredth of the peg.** -/
theorem proportionate_iff {c : CurrencyId} {market peg : ℕ} {s s' : State A} {u : Unit}
    (h : (serpTes cfg c).run s = .ok u s')
    (hmarket : s.prices.stablecoinMarketPrice c = some market)
    (hpeg : s.prices.stablecoinFixedPrice c = some peg) :
    Proportionate c market peg s s' ↔
      100 ≤ s.ledger.issuance c ∧ s.ledger.issuance c < 200 ∧ market < peg / 100 := by
  obtain ⟨market', peg', hmarket', hpeg', hpos, hlt, hup⟩ := serpTes_ok h
  obtain rfl : market = market' := Option.some.inj (hmarket.symm.trans hmarket')
  obtain rfl : peg = peg' := Option.some.inj (hpeg.symm.trans hpeg')
  obtain ⟨hne, hevent⟩ := events_onSerpup hup
  have hdeviation : deviationPercent market peg = 100 - market / (peg / 100) := by
    unfold deviationPercent
    omega
  have hzero : market / (peg / 100) = 0 ↔ market < peg / 100 := by
    rw [Nat.div_eq_zero_iff]
    omega
  unfold Proportionate
  rw [hdeviation, hevent, ← hzero, ← hundredth_mul_le_iff hne]
  constructor
  · rintro ⟨amount, -, hle, hamount | ⟨hamount, -⟩⟩
    · cases hamount
      exact hle
    · cases hamount
  · intro hle
    refine ⟨_, ?_, hle, .inl rfl⟩
    obtain ⟨h100, h200, hpercentage⟩ := (hundredth_mul_le_iff hne).mp hle
    rw [hpercentage, Nat.mul_comm]
    exact Nat.mul_le_mul_left _ h100

/-- A hundred and fifty units are issued, and priced at a thousandth of the peg. -/
def scarceState : State ℕ :=
  { sampleState (10 ^ 15) with
    ledger := Ledger.empty.setIssuance (.Token .USDJ) 150 (by decide) }

theorem scarceState_proportionate :
    Proportionate (.Token .USDJ) (10 ^ 15) (10 ^ 18) scarceState
      (Dispatch.commit (serpTes sampleConfig (.Token .USDJ)) scarceState) :=
  have hrun := Dispatch.run_eq_commit (x := serpTes sampleConfig (.Token .USDJ))
    (by decide +kernel : Dispatch.succeeds _ scarceState = true)
  (proportionate_iff hrun rfl rfl).mpr (by decide)

/-- **Three thousand units at half the peg are expanded by ninety thousand.** -/
theorem expanded_thirtyfold :
    Dispatch.succeeds (serpTes sampleConfig (.Token .USDJ)) (sampleState (5 * 10 ^ 17)) = true ∧
      ¬ Proportionate (.Token .USDJ) (5 * 10 ^ 17) (10 ^ 18) (sampleState (5 * 10 ^ 17))
        (Dispatch.commit (serpTes sampleConfig (.Token .USDJ)) (sampleState (5 * 10 ^ 17))) := by
  have hevent : (Dispatch.commit (serpTes sampleConfig (.Token .USDJ))
      (sampleState (5 * 10 ^ 17))).events.head?
        = some (.CurrencySerpedUp 90000 (.Token .USDJ)) := by decide +kernel
  refine ⟨by decide +kernel, ?_⟩
  rintro ⟨amount, -, hle, hamount⟩
  rw [hevent] at hamount
  rcases hamount with hamount | ⟨hamount, -⟩
  · cases hamount
    revert hle
    decide +kernel
  · cases hamount

end Setheum.Serp
