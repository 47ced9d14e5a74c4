import Setheum.Settmint.Positions
import Mathlib.Tactic.Linarith

/-!
# What the manager's account owes

Positions record raw units; every deposit, withdrawal, issue and repayment moves the value that
its own units convert to, rounded down on its own. The results here say when the manager can pay
nevertheless, and when it burns what it issued.

* `solvent_of_run` — the manager can pay out every position after a run whose conversions drop
  nothing that a later one of the whole position would count.
* `round_trip_iff` — a round trip burns what it issued exactly when its conversions drop as much
  on the way in as on the way out.
-/

set_option autoImplicit false

namespace Setheum.Settmint

open StorageMap Dispatch

variable {A E : Type} [DecidableEq A] {cfg : Config A E} {s s' : State A E}

/-! ## Solvency -/

/-- What withdrawing a reserve in one call transfers out. -/
def withdrawable (cfg : Config A E) (s : State A E) (reserve : ℕ) : ℕ :=
  match convert cfg s cfg.reserveCurrencyId reserve with
  | .ok amount => amount
  | .error _ => 0

/-- What one stored position is owed. -/
def liability (cfg : Config A E) (s : State A E) (_ : CurrencyId × A) (p : Position) : ℕ :=
  withdrawable cfg s p.reserve

/-- What withdrawing every position in one call each transfers out. -/
def liabilities (cfg : Config A E) (s : State A E) : ℕ := sumBy (liability cfg s) s.positions

/-- The conversion of the moved units and that of the position are consistent: converting the
whole does not count more than converting the parts. -/
def DropsNothing (cfg : Config A E) (s : State A E) : Call cfg → Prop
  | .adjustPosition who c ra _ =>
      let reserve := (s.position c who.1).reserve
      let units := Amount.saturatingAbs ra
      if 0 < ra then
        withdrawable cfg s (reserve + units) ≤ withdrawable cfg s reserve + withdrawable cfg s units
      else
        withdrawable cfg s (reserve - units) + withdrawable cfg s units ≤ withdrawable cfg s reserve
  | .transferPositionFrom target c source =>
      source = target.1 ∨
        withdrawable cfg s ((s.position c target.1).reserve + (s.position c source).reserve)
          ≤ withdrawable cfg s (s.position c target.1).reserve
            + withdrawable cfg s (s.position c source).reserve
  | _ => True

instance DropsNothing.decidable (cfg : Config A E) (s : State A E) :
    ∀ call, Decidable (DropsNothing cfg s call)
  | .adjustPosition who c ra _ =>
      inferInstanceAs (Decidable (if 0 < ra then
        withdrawable cfg s ((s.position c who.1).reserve + Amount.saturatingAbs ra)
          ≤ withdrawable cfg s (s.position c who.1).reserve
            + withdrawable cfg s (Amount.saturatingAbs ra)
      else
        withdrawable cfg s ((s.position c who.1).reserve - Amount.saturatingAbs ra)
            + withdrawable cfg s (Amount.saturatingAbs ra)
          ≤ withdrawable cfg s (s.position c who.1).reserve))
  | .transferPositionFrom target _ source =>
      inferInstanceAs (Decidable (source = target.1 ∨ _ ≤ _))
  | .authorize .. => inferInstanceAs (Decidable True)
  | .unauthorize .. => inferInstanceAs (Decidable True)
  | .unauthorizeAll .. => inferInstanceAs (Decidable True)
  | .outside .. => inferInstanceAs (Decidable True)

omit [DecidableEq A] in
@[simp] theorem withdrawable_zero (cfg : Config A E) (s : State A E) :
    withdrawable cfg s 0 = 0 := by
  unfold withdrawable convert
  cases getStandardExchangeRate cfg s cfg.reserveCurrencyId <;> simp

/-- Updating one position moves the liabilities by what the position is worth. -/
theorem liabilities_store (cfg : Config A E) (s : State A E) (c : CurrencyId) (who : A)
    (p : Position) :
    sumBy (liability cfg s) (store Position.zero s.positions (c, who) p)
        + withdrawable cfg s (s.position c who).reserve
      = liabilities cfg s + withdrawable cfg s p.reserve := by
  have hzero : liability cfg s (c, who) Position.zero = 0 := withdrawable_zero cfg s
  exact sumBy_store_add (liability cfg s) s.positions (c, who) Position.zero p hzero

/-- Moving standard currency leaves the manager's account alone. -/
theorem StandardMoved.manager_free {who : A} {c : CurrencyId} {sa : ℤ}
    {l l' : Ledger CurrencyId A} (h : StandardMoved cfg s who c sa l l')
    (hwho : who ≠ cfg.accountId) (d : CurrencyId) :
    l'.free d cfg.accountId = l.free d cfg.accountId := by
  rcases h with ⟨-, rfl⟩ | ⟨n, -, ⟨-, hl⟩ | ⟨-, hl⟩⟩
  · rfl
  · simpa [hwho.symm] using Ledger.deposit_free hl d cfg.accountId
  · simpa [hwho.symm] using Ledger.withdraw_free hl d cfg.accountId

/-- What a reserve adjustment brings to the manager's account, or takes from it. -/
theorem ReserveMoved.manager_free {who : A} {ra : ℤ} {l l' : Ledger CurrencyId A}
    (h : ReserveMoved cfg s who ra l l') (hwho : who ≠ cfg.accountId) :
    (0 < ra → l'.free cfg.reserveCurrencyId cfg.accountId
        = l.free cfg.reserveCurrencyId cfg.accountId
          + withdrawable cfg s (Amount.saturatingAbs ra)) ∧
      (¬ 0 < ra → l'.free cfg.reserveCurrencyId cfg.accountId
          + withdrawable cfg s (Amount.saturatingAbs ra)
        = l.free cfg.reserveCurrencyId cfg.accountId) := by
  rcases h with ⟨rfl, rfl⟩ | ⟨n, hn, ⟨hpos, hl⟩ | ⟨hneg, hl⟩⟩
  · simp [Amount.saturatingAbs]
  · have hfree := Ledger.transfer_free hl cfg.reserveCurrencyId cfg.accountId
    have hval : withdrawable cfg s (Amount.saturatingAbs ra) = n := by
      rw [withdrawable, hn]
    simp only [hwho.symm, and_false, and_true, if_true, if_false, add_zero] at hfree
    exact ⟨fun _ => by rw [hval, hfree], fun hnot => absurd hpos hnot⟩
  · have hfree := Ledger.transfer_free hl cfg.reserveCurrencyId cfg.accountId
    have hval : withdrawable cfg s (Amount.saturatingAbs ra) = n := by
      rw [withdrawable, hn]
    simp only [hwho.symm, and_false, and_true, if_true, if_false, add_zero] at hfree
    exact ⟨fun hpos => by omega, fun _ => by rw [hval, hfree]⟩

/-- The manager holds enough of the reserve currency for every position. -/
def Solvent (cfg : Config A E) (s : State A E) : Prop :=
  liabilities cfg s ≤ s.ledger.free cfg.reserveCurrencyId cfg.accountId

theorem adjustPosition_solvent {who : Signer cfg} {c : CurrencyId} {ra sa : ℤ} {u : Unit}
    (h : Solvent cfg s) (hrun : (adjustPosition cfg who c ra sa).run s = .ok u s')
    (hok : DropsNothing cfg s (.adjustPosition who c ra sa)) : Solvent cfg s' := by
  obtain ⟨s₁, l₁, l₂, hupdate, hreserve, hstandard, -, rfl⟩ := adjustPosition_spec hrun
  obtain ⟨p, t, happly, -, -, -, rfl⟩ := updateReserve_spec hupdate
  have hin := hreserve.manager_free who.2
  have hkeep := hstandard.manager_free who.2 cfg.reserveCurrencyId
  have hstore := liabilities_store cfg s c who.1 p
  have hafter : liabilities cfg s ≤ s.ledger.free cfg.reserveCurrencyId cfg.accountId := h
  show sumBy (liability cfg s) (store Position.zero s.positions (c, who.1) p)
    ≤ l₂.free cfg.reserveCurrencyId cfg.accountId
  rw [hkeep]
  unfold applyAmount at happly
  simp only [DropsNothing] at hok
  split at hok
  · rename_i hpos
    rw [if_pos hpos, Balance.checkedAdd_eq_some] at happly
    have hfree := hin.1 hpos
    rw [happly.1] at hok
    omega
  · rename_i hpos
    rw [if_neg hpos, Balance.checkedSub_eq_some] at happly
    have hfree := hin.2 hpos
    have hsub : (s.position c who.1).reserve - Amount.saturatingAbs ra = p.reserve := by omega
    rw [hsub] at hok
    omega

theorem transferPositionFrom_solvent {target : Signer cfg} {c : CurrencyId} {source : A} {u : Unit}
    (h : Solvent cfg s) (hrun : (transferPositionFrom cfg target c source).run s = .ok u s')
    (hok : DropsNothing cfg s (.transferPositionFrom target c source)) : Solvent cfg s' := by
  obtain ⟨s₁, hfit, -, hsource, htarget⟩ := transferPositionFrom_spec hrun
  obtain ⟨p, t, hclose, -, -, -, rfl⟩ := updateReserve_spec hsource
  obtain ⟨q, t', hopen, -, -, -, rfl⟩ := updateReserve_spec htarget
  have hclose := applyAmount_spec hclose
  have hopen := applyAmount_spec hopen
  rw [Amount.saturated_neg hfit] at hclose
  rw [Amount.saturated_eq (by unfold Amount.minValue; omega) hfit] at hopen
  have hp : p.reserve = 0 := by omega
  have hstore := liabilities_store cfg s c source p
  rw [hp, withdrawable_zero, add_zero] at hstore
  simp only [State.position] at hopen
  set m := store Position.zero s.positions (c, source) p
  have hstore' : sumBy (liability cfg s) (store Position.zero m (c, target.1) q)
        + withdrawable cfg s (StorageMap.get Position.zero m (c, target.1)).reserve
      = sumBy (liability cfg s) m + withdrawable cfg s q.reserve :=
    liabilities_store cfg { s with positions := m } c target.1 q
  have hsolvent : liabilities cfg s ≤ s.ledger.free cfg.reserveCurrencyId cfg.accountId := h
  show sumBy (liability cfg s) (store Position.zero m (c, target.1) q)
    ≤ s.ledger.free cfg.reserveCurrencyId cfg.accountId
  rcases eq_or_ne source target.1 with hsame | hne
  · -- onto itself: the position is closed and opened again
    subst hsame
    have hget : StorageMap.get Position.zero m (c, target.1) = p := get_store _ _ _ _
    rw [hget, hp] at hopen hstore'
    rw [withdrawable_zero] at hstore'
    have hq : q.reserve = (s.position c target.1).reserve := by
      rw [State.position]
      omega
    rw [hq] at hstore'
    omega
  · have hkey : (c, target.1) ≠ (c, source) := fun heq => hne (Prod.ext_iff.mp heq).2.symm
    have hget : StorageMap.get Position.zero m (c, target.1) = s.position c target.1 :=
      get_store_ne _ _ _ hkey
    rw [hget] at hopen hstore'
    rcases hok with heq | hdrop
    · exact absurd heq hne
    · have hq : q.reserve = (s.position c target.1).reserve + (s.position c source).reserve := by
        simp only [State.position] at hopen ⊢
        omega
      rw [← hq] at hdrop
      omega

/-- If the call succeeds, the conversions it makes drop nothing that the whole position counts. -/
def MeetsSolvency (cfg : Config A E) (s : State A E) (call : Call cfg) : Prop :=
  (dispatch cfg call).succeeds s = true → DropsNothing cfg s call

theorem step_solvent (s : State A E) (call : Call cfg) (h : Solvent cfg s)
    (hok : MeetsSolvency cfg s call) : Solvent cfg (step cfg s call) := by
  cases call with
  | adjustPosition who c ra sa =>
      refine commit_transactional_invariant h fun u s' hrun => ?_
      have hrun := run_transactional_ok.mpr hrun
      exact adjustPosition_solvent h hrun (hok (succeeds_of_ok hrun))
  | transferPositionFrom target c source =>
      refine commit_transactional_invariant h fun u s' hrun => ?_
      have hrun := run_transactional_ok.mpr hrun
      exact transferPositionFrom_solvent h hrun (hok (succeeds_of_ok hrun))
  | authorize source c target => exact h
  | unauthorize source c target => exact h
  | unauthorizeAll source => exact h
  | outside o => exact le_trans h (o.manager_free s cfg.reserveCurrencyId)

/-- **SettMint reserve solvency.** In every run whose conversions drop nothing, the manager's
account holds at least what withdrawing every position in one call each would transfer out. -/
theorem solvent_of_run (cfg : Config A E) (s : State A E) (hs : Genesis s)
    (calls : List (Call cfg)) (h : Machine.StepsMeet (step cfg) (MeetsSolvency cfg) s calls) :
    liabilities cfg (Machine.run (step cfg) s calls)
      ≤ (Machine.run (step cfg) s calls).ledger.free cfg.reserveCurrencyId cfg.accountId := by
  refine Machine.run_invariant (P := Solvent cfg) step_solvent ?_ h
  show liabilities cfg s ≤ s.ledger.free cfg.reserveCurrencyId cfg.accountId
  simp [liabilities, hs.positions]

/-- Deposits and withdrawals of whole tens of units. -/
def roundRun : List (Call sampleConfig) :=
  [.adjustPosition alice (.Token .USDJ) 100 20, .adjustPosition alice (.Token .USDJ) 50 0,
    .adjustPosition alice (.Token .USDJ) (-30) 0]

theorem roundRun_solvent :
    liabilities sampleConfig (Machine.run (step sampleConfig) sampleState roundRun)
      ≤ (Machine.run (step sampleConfig) sampleState roundRun).ledger.free (.Token .SETT) 0 :=
  solvent_of_run sampleConfig sampleState sampleState_genesis roundRun
    ⟨fun _ => by decide, fun _ => by decide, fun _ => by decide, trivial⟩

/-- **Two deposits of nine units bring in nothing and can be withdrawn as one unit of value.** -/
theorem insolvent_after_two_deposits :
    Genesis sampleState ∧
      ¬ ∀ calls : List (Call sampleConfig),
        liabilities sampleConfig (Machine.run (step sampleConfig) sampleState calls)
          ≤ (Machine.run (step sampleConfig) sampleState calls).ledger.free
            sampleConfig.reserveCurrencyId sampleConfig.accountId := by
  refine ⟨sampleState_genesis, fun h => ?_⟩
  have hsolvent := h [.adjustPosition alice (.Token .USDJ) 9 0,
    .adjustPosition alice (.Token .USDJ) 9 0]
  revert hsolvent
  decide

/-! ## Round trips -/

/-- The rate of a standard currency, zero for any other. -/
def rateOf (cfg : Config A E) (s : State A E) (c : CurrencyId) : ℕ :=
  match getStandardExchangeRate cfg s c with
  | .ok rate => rate
  | .error _ => 0

/-- What a number of units converts to. -/
def valueOf (cfg : Config A E) (s : State A E) (c : CurrencyId) (units : ℕ) : ℕ :=
  FixedU128.saturatingMulInt (rateOf cfg s c) units

/-- What the conversion of a number of units drops, in `FixedU128` fractions; negative when it is
rounded up. -/
def dropped (cfg : Config A E) (s : State A E) (c : CurrencyId) (units : ℕ) : ℤ :=
  rateOf cfg s c * units - FixedU128.accuracy * valueOf cfg s c units

omit [DecidableEq A] in
/-- It is the remainder of the rate times the units, where the value fits: the whole remainder, or
as much as rounding up lacks. -/
theorem dropped_eq {c : CurrencyId} {units : ℕ}
    (h : FixedU128.quotient (rateOf cfg s c * units) FixedU128.accuracy ≤ Balance.maxValue) :
    dropped cfg s c units = ((rateOf cfg s c * units % FixedU128.accuracy : ℕ) : ℤ)
      - if FixedU128.RoundsDown (rateOf cfg s c * units) FixedU128.accuracy then 0
        else FixedU128.accuracy := by
  have hvalue : valueOf cfg s c units
      = FixedU128.quotient (rateOf cfg s c * units) FixedU128.accuracy := by
    rw [valueOf, FixedU128.saturatingMulInt_eq_min, min_eq_left h]
  have hparts := FixedU128.accuracy_mul_quotient (rateOf cfg s c * units)
  have hcast : (rateOf cfg s c : ℤ) * units = ((rateOf cfg s c * units : ℕ) : ℤ) :=
    (Nat.cast_mul _ _).symm
  rw [dropped, hvalue, hcast]
  split_ifs at hparts ⊢ <;> omega

/-- A list of adjustments of one position, one call each. -/
def adjustAll (cfg : Config A E) (who : Signer cfg) (c : CurrencyId) (adjustments : List (ℤ × ℤ)) :
    SettM A E PUnit :=
  adjustments.forM fun a => adjustPosition cfg who c a.1 a.2

/-- The sum of a quantity of the units that the adjustments issue. -/
def overIssues {M : Type} [AddCommMonoid M] (f : ℕ → M) (adjustments : List (ℤ × ℤ)) : M :=
  (adjustments.map fun a => if 0 < a.2 then f (Amount.saturatingAbs a.2) else 0).sum

/-- The sum of a quantity of the units that the adjustments repay. -/
def overRepayments {M : Type} [AddCommMonoid M] (f : ℕ → M) (adjustments : List (ℤ × ℤ)) : M :=
  (adjustments.map fun a => if a.2 < 0 then f (Amount.saturatingAbs a.2) else 0).sum

omit [DecidableEq A] in
theorem convert_eq_valueOf {c : CurrencyId} {units n : ℕ} (h : convert cfg s c units = .ok n) :
    n = valueOf cfg s c units := by
  unfold convert at h
  unfold valueOf rateOf
  cases hrate : getStandardExchangeRate cfg s c with
  | error e =>
      rw [hrate] at h
      cases h
  | ok rate =>
      rw [hrate] at h
      cases h
      rfl

/-- One adjustment changes the issuance by what it issues and burns. -/
theorem adjustPosition_issuance {who : Signer cfg} {c : CurrencyId} {ra sa : ℤ} {u : Unit}
    (h : (adjustPosition cfg who c ra sa).run s = .ok u s') :
    s'.ledger.issuance c + (if sa < 0 then valueOf cfg s c (Amount.saturatingAbs sa) else 0)
        = s.ledger.issuance c + (if 0 < sa then valueOf cfg s c (Amount.saturatingAbs sa) else 0) ∧
      ((s'.position c who.1).standard : ℤ) = (s.position c who.1).standard + Amount.saturated sa ∧
      s'.standardExchangeRate = s.standardExchangeRate := by
  obtain ⟨s₁, l₁, l₂, hupdate, hreserve, hstandard, -, rfl⟩ := adjustPosition_spec h
  obtain ⟨p, t, -, happly, -, -, rfl⟩ := updateReserve_spec hupdate
  refine ⟨?_, ?_, rfl⟩
  · have hkeep : l₁.issuance = s.ledger.issuance := by
      rcases hreserve with ⟨-, rfl⟩ | ⟨n, -, ⟨-, hl⟩ | ⟨-, hl⟩⟩
      · rfl
      · exact Ledger.transfer_issuance hl
      · exact Ledger.transfer_issuance hl
    show l₂.issuance c + _ = _
    rcases hstandard with ⟨rfl, rfl⟩ | ⟨n, hn, ⟨hpos, hl⟩ | ⟨hneg, hl⟩⟩
    · simp [hkeep]
    · have hissue := Ledger.deposit_issuance hl c
      rw [if_neg (by omega), if_pos hpos, ← convert_eq_valueOf hn, hissue, if_pos rfl, hkeep,
        add_zero]
    · have hburn := Ledger.withdraw_issuance hl c
      rw [if_pos hneg, if_neg (by omega), ← convert_eq_valueOf hn, ← hkeep, ← hburn, if_pos rfl,
        add_zero]
  · rw [State.position, get_store]
    exact applyAmount_spec happly

/-- A run of adjustments changes the issuance by what it issues and burns, and the units of the
position by the sum of its adjustments. -/
theorem adjustAll_issuance {who : Signer cfg} {c : CurrencyId} {adjustments : List (ℤ × ℤ)}
    {u : PUnit} (h : (adjustAll cfg who c adjustments).run s = .ok u s') :
    s'.ledger.issuance c + overRepayments (valueOf cfg s c) adjustments
        = s.ledger.issuance c + overIssues (valueOf cfg s c) adjustments ∧
      ((s'.position c who.1).standard : ℤ) = (s.position c who.1).standard
        + (adjustments.map fun a => Amount.saturated a.2).sum := by
  induction adjustments generalizing s with
  | nil =>
      obtain rfl := run_forM_nil_ok.mp h
      simp [overRepayments, overIssues]
  | cons a adjustments ih =>
      obtain ⟨_, s₁, hfirst, hrest⟩ := run_forM_cons_ok.mp h
      obtain ⟨hissuance, hstandard, hrate⟩ := adjustPosition_issuance hfirst
      obtain ⟨hissuance', hstandard'⟩ := ih hrest
      have hvalue : valueOf cfg s₁ c = valueOf cfg s c := by
        unfold valueOf rateOf getStandardExchangeRate
        rw [hrate]
      rw [hvalue] at hissuance'
      simp only [overRepayments, overIssues, List.map_cons, List.sum_cons] at hissuance' ⊢
      constructor
      · omega
      · omega

omit [DecidableEq A] in
/-- What the conversions of a list of adjustments drop is what their values miss. -/
theorem accuracy_mul_values (cfg : Config A E) (s : State A E) (c : CurrencyId)
    (adjustments : List (ℤ × ℤ)) :
    (FixedU128.accuracy : ℤ) * (overIssues (valueOf cfg s c) adjustments
          - overRepayments (valueOf cfg s c) adjustments)
        + (overIssues (dropped cfg s c) adjustments - overRepayments (dropped cfg s c) adjustments)
      = rateOf cfg s c * (adjustments.map fun a => Amount.saturated a.2).sum := by
  induction adjustments with
  | nil => simp [overRepayments, overIssues]
  | cons a adjustments ih =>
      simp only [overRepayments, overIssues, List.map_cons, List.sum_cons, Nat.cast_add] at ih ⊢
      have hdropped : dropped cfg s c (Amount.saturatingAbs a.2)
          = rateOf cfg s c * Amount.saturatingAbs a.2
            - FixedU128.accuracy * valueOf cfg s c (Amount.saturatingAbs a.2) := rfl
      rcases lt_trichotomy a.2 0 with hneg | hzero | hpos
      · have hsigned : Amount.saturated a.2 = -(Amount.saturatingAbs a.2 : ℤ) := by
          rw [Amount.saturated, if_neg (by omega)]
        simp only [if_pos hneg, if_neg (show ¬ 0 < a.2 by omega), hsigned, hdropped]
        simp only [Nat.cast_zero]
        linarith
      · have hsigned : Amount.saturated a.2 = 0 := by
          simp [hzero, Amount.saturated, Amount.saturatingAbs]
        simp only [hzero, lt_irrefl, if_false] at hsigned ⊢
        rw [hsigned]
        simp only [Nat.cast_zero]
        linarith
      · have hsigned : Amount.saturated a.2 = (Amount.saturatingAbs a.2 : ℤ) := by
          rw [Amount.saturated, if_pos hpos]
        simp only [if_pos hpos, if_neg (show ¬ a.2 < 0 by omega), hsigned, hdropped]
        simp only [Nat.cast_zero]
        linarith

/-- **SettMint issue and burn symmetry.** A run of successful adjustments of one position that
starts and ends with no standard burns what it issued, and leaves the issuance of the currency as it
was, exactly when its conversions drop as much on issues as on repayments. -/
theorem round_trip_iff (cfg : Config A E) (s s' : State A E) (who : Signer cfg) (c : CurrencyId)
    (adjustments : List (ℤ × ℤ)) (h : (adjustAll cfg who c adjustments).run s = .ok ⟨⟩ s')
    (hstart : (s.position c who.1).standard = 0) (hend : (s'.position c who.1).standard = 0) :
    (overIssues (valueOf cfg s c) adjustments = overRepayments (valueOf cfg s c) adjustments ∧
        s'.ledger.issuance c = s.ledger.issuance c) ↔
      overIssues (dropped cfg s c) adjustments = overRepayments (dropped cfg s c) adjustments := by
  obtain ⟨hissuance, hstandard⟩ := adjustAll_issuance h
  have hvalues := accuracy_mul_values cfg s c adjustments
  have hsum : (adjustments.map fun a => Amount.saturated a.2).sum = 0 := by
    rw [hstart, hend] at hstandard
    omega
  rw [hsum, mul_zero] at hvalues
  constructor
  · rintro ⟨hvalue, -⟩
    rw [hvalue, sub_self, mul_zero, zero_add] at hvalues
    omega
  · intro hdropped
    rw [hdropped, sub_self, add_zero, mul_eq_zero] at hvalues
    have hvalue : overIssues (valueOf cfg s c) adjustments
        = overRepayments (valueOf cfg s c) adjustments := by
      rcases hvalues with hzero | hdiff
      · exact absurd hzero (by decide)
      · omega
    exact ⟨hvalue, by omega⟩

/-- Thirty and twenty units issued, fifty repaid. -/
theorem sample_round_trip :
    (overIssues (valueOf sampleConfig sampleState (.Token .USDJ)) [(0, 30), (0, 20), (0, -50)]
          = overRepayments (valueOf sampleConfig sampleState (.Token .USDJ))
            [(0, 30), (0, 20), (0, -50)] ∧
        ((adjustAll sampleConfig alice (.Token .USDJ) [(0, 30), (0, 20), (0, -50)]).commit
          sampleState).ledger.issuance (.Token .USDJ)
          = sampleState.ledger.issuance (.Token .USDJ)) ↔
      overIssues (dropped sampleConfig sampleState (.Token .USDJ)) [(0, 30), (0, 20), (0, -50)]
        = overRepayments (dropped sampleConfig sampleState (.Token .USDJ))
          [(0, 30), (0, 20), (0, -50)] :=
  round_trip_iff sampleConfig sampleState _ alice (.Token .USDJ) [(0, 30), (0, 20), (0, -50)]
    (run_eq_commit (by decide +kernel)) (by decide +kernel) (by decide +kernel)

/-- **A round trip burns more than it issued.** Twenty-nine units issued twice convert to four, the
fifty-eight units repaid at once to five. -/
theorem round_trip_burns_more :
    ¬ ∀ (adjustments : List (ℤ × ℤ)) (s' : State ℕ Unit),
      (adjustAll sampleConfig alice (.Token .USDJ) adjustments).run sampleState = .ok ⟨⟩ s' →
      (sampleState.position (.Token .USDJ) 1).standard = 0 →
      (s'.position (.Token .USDJ) 1).standard = 0 →
      overIssues (valueOf sampleConfig sampleState (.Token .USDJ)) adjustments
          = overRepayments (valueOf sampleConfig sampleState (.Token .USDJ)) adjustments ∧
        s'.ledger.issuance (.Token .USDJ) = sampleState.ledger.issuance (.Token .USDJ) := by
  intro h
  have hround := h [(0, 29), (0, 29), (0, -58)]
    ((adjustAll sampleConfig alice (.Token .USDJ) [(0, 29), (0, 29), (0, -58)]).commit sampleState)
    (run_eq_commit (by decide +kernel)) (by decide +kernel) (by decide +kernel)
  revert hround
  decide

end Setheum.Settmint
